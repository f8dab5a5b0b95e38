import ModelContracts.Emission.Basic

/-!
Identity of contracts. A contract is a class below the model node; an identity marker on it records
the full name of the class that it was derived from.
-/

namespace ModelContracts

namespace World

variable (w : World)

def isContract : Value → Bool
  | .type (.cls c) => w.derives c ClassId.modelNode
  | _ => false

/-- The markers on a class that are of a kind; an ancestor's markers do not count. -/
def classMarkersOf (c kind : ClassId) : List Marker :=
  (w.markersOf c).filter fun m => w.derives m.kind kind

def recordedName? (c : ClassId) : Option Value :=
  (w.classMarkersOf c MarkerShape.className.kind).head?.map fun m => m.field "type_name"

def fixedModules : List String := ["builtins", "datetime", "decimal"]

/-- The world after a marker is applied to a class; `none` when the marker is not meant for classes
or the class cannot be changed. -/
def applyMarker? (c : ClassId) (m : Marker) : Option World :=
  if w.derives m.kind (ClassId.marker "ClassMarker") && !fixedModules.contains c.moduleName
  then some (w.mark c m) else none

end World

namespace Marker

def simpleName (typeName : String) : String := Text.lastPiece '.' typeName

def nodeTypeName : Value → Except EmissionError Value
  | .none => .ok .none
  | v => match v.toType with
    | .cls c => .ok (.text c.simpleName)
    | .generic form origin _ =>
      .ok (.text (if form = .typing then TypeExpr.aliasName origin else origin.simpleName))
    | .typeVar name => .ok (.text name)
    | _ => if v.truthy then .error (.malformedField v) else .ok .none

/-- A calculator in the form in which a source class carries it, for a calculator class. -/
def wrapped (calculator : Marker) (calculatorType : Value) : Except EmissionError Marker := do
  let nodeType ← nodeTypeName (calculator.field "node_type")
  return stock .modelValueCalculatorWrapper
    [calculatorType, calculator.field "link_value", calculator.field "node_name", nodeType,
      calculator.field "property_name"]

end Marker

end ModelContracts
