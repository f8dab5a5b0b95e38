import ModelContracts.World.StandardModules

/-!
The classes that exist in every world: builtin values, the value types of the standard modules,
markers, contracts and option groups.
-/

namespace ModelContracts

namespace Standard

open ClassId TypeExpr

def classOf (c : ClassId) (ancestors : List ClassId) : ClassInfo :=
  { id := c, lineage := c :: ancestors ++ [object] }

def iterableOf (c : ClassId) : ClassInfo := { classOf c [] with iterable := true }

def builtins : List ClassInfo :=
  [{ id := object, lineage := [object] }, classOf bool [int], classOf int [], classOf float [],
    classOf complex [], { iterableOf str with iterable := true }, iterableOf bytes,
    iterableOf bytearray, iterableOf list, iterableOf dict, iterableOf (builtin "set"),
    iterableOf (builtin "frozenset"), iterableOf tuple, classOf type [], classOf noneType [],
    classOf (builtin "function") [], classOf (builtin "module") [], classOf (builtin "property") []]

def abstractClasses : List ClassInfo :=
  let container := abstract "Container"
  let sized := abstract "Sized"
  let collection := abstract "Collection"
  [iterableOf iterable, classOf callable [], classOf sized [], classOf container [],
    { classOf collection [sized, iterable, container] with iterable := true },
    { classOf (abstract "Sequence") [abstract "Reversible", collection, sized, iterable, container]
        with iterable := true },
    { classOf (abstract "Mapping") [collection, sized, iterable, container] with iterable := true }]

def valueTypes : List ClassInfo :=
  let numeric (name : String) : ClassId := ⟨"numbers", name, 0⟩
  [classOf any [], classOf generic [], classOf decimal [],
    classOf fraction [numeric "Rational", numeric "Real", numeric "Complex", numeric "Number"],
    classOf uuid [], classOf datetime [date], classOf date [], classOf time [],
    classOf timedelta [], classOf ⟨"datetime", "tzinfo", 0⟩ [],
    classOf ⟨"datetime", "timezone", 0⟩ [⟨"datetime", "tzinfo", 0⟩], classOf enum [],
    classOf reprEnum [enum], classOf flag [enum], classOf intEnum [int, reprEnum, enum],
    classOf strEnum [str, reprEnum, enum], classOf intFlag [int, reprEnum, flag, enum]]

def optionalOf (c : ClassId) : TypeExpr := unionOf [.cls c, noneType]

def fieldTypes : MarkerShape → List TypeExpr
  | .browsable | .localizable | .readOnly => [.cls bool]
  | .obsolete | .category | .description | .localizedDescription | .className
  | .modelDisplayName => [.cls str]
  | .editor => [.cls str, .cls str]
  | .refreshProperties => [.cls refreshMode]
  | .typeConverter => [unionOf [.cls type, .cls str]]
  | .defaultValue => [.cls any, optionalOf any]
  | .modelValueCalculator =>
    [optionalOf type, optionalOf str, optionalOf str, optionalOf type, optionalOf str]
  | .modelValueCalculatorWrapper =>
    [optionalOf type, optionalOf str, optionalOf str, optionalOf str, optionalOf str]
  | .modelReadOnly => [.cls type]
  | _ => []

def derivedNames : MarkerShape → List Property
  | .typeConverter => [⟨"converter_type_name", some (.cls str), true, false⟩]
  | .className => [⟨"simple_name", some (.cls str), true, false⟩]
  | _ => []

def markerClass (s : MarkerShape) : ClassInfo :=
  let bases := if s.onClasses then [marker "ClassMarker", marker "Marker"] else [marker "Marker"]
  { classOf s.kind bases with
    attributes := (s.fields.map (·.1)).zip (fieldTypes s)
    properties := derivedNames s
    record := some true
    shape := some s }

def markers : List ClassInfo :=
  { classOf (marker "Marker") [] with shape := some .bare } ::
  classOf (marker "ClassMarker") [marker "Marker"] ::
  { classOf refreshMode [enum] with
    members := [("NONE", .int 0), ("ALL", .int 1), ("REPAINT", .int 2)] } ::
  MarkerShape.stock.map markerClass

def enabledAttribute : TypeExpr :=
  .annotated (.cls bool)
    [(Marker.stock .category [.text "Behavior"]).toValue,
      (Marker.stock .defaultValue [.bool true, .none]).toValue]

def contracts : List ClassInfo :=
  [classOf modelNode [],
    { classOf modelNodeEnabled [modelNode] with
      attributes := [("NodeEnabled", enabledAttribute)] }]

def options : List ClassInfo :=
  let base := option "BaseOptions"
  [classOf base [], classOf (option "AppearanceOptions") [base],
    classOf (option "FormatOptions") [base], classOf (option "TextOptions") [base]]

def classes : List ClassInfo :=
  builtins ++ abstractClasses ++ valueTypes ++ markers ++ contracts ++ options

end Standard

def World.standard : World :=
  { classes := Standard.classes
    modules := StandardModule.all.map StandardModule.toModule
    importable := StandardModule.importable
    packages := StandardModule.packages }

end ModelContracts
