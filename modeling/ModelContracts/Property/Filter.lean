import ModelContracts.Emission.Basic
import ModelContracts.Property.Eligibility

/-!
Property filters: a list of actions on a descriptor. Predicates reject it; all other actions
reshape it, and later ones see what earlier ones made of it.
-/

namespace ModelContracts

inductive FilterAction where
  | eligible (e : Eligibility)
  | only (names : List String)
  | except (names : List String)
  | setCategory (names : List (String × Value))
  | setBrowsable (names : List (String × Value))
  | setDefault (names : List (String × Value))
  | calculate (names : List (String × ClassId))
  | hide (names : List String)
  | rename (names : List (String × String))
  | retype (names : List (String × TypeExpr))
  | add (name : String) (m : Marker)
  | removeKind (kind : ClassId)
  /-- Removes the type converters whose dotted name starts with a text. -/
  | removeConverters (start : String)
  /-- A decision of the caller's own: the descriptor that is emitted instead, or none. -/
  | own (decision : Descriptor → Option Descriptor)

abbrev PropertyFilter := Option (List FilterAction)

def Marker.converterName (m : Marker) : Except EmissionError String :=
  match m.field "converter" with
  | .text s => .ok s
  | .type (.cls c) => .ok c.fullName
  | v => match v.text? with
    | some s => .ok s
    | none => .error (.malformedField v)

namespace Descriptor

variable (w : World)

def replaceMarker (d : Descriptor) (shape : MarkerShape) (args : List Value) : Descriptor :=
  (d.removeKind w shape.kind).attach (Marker.stock shape args)

def setBrowsable (d : Descriptor) (names : List (String × Value)) : Descriptor :=
  match names.lookup d.name with
  | some v => d.replaceMarker w .browsable [v]
  | none => d

def setCategory (d : Descriptor) (names : List (String × Value)) : Descriptor :=
  match names.lookup d.name with
  | some v => d.replaceMarker w .category [v]
  | none => d

def setDefault (d : Descriptor) (names : List (String × Value)) : Descriptor :=
  match names.lookup d.name with
  | some v => d.replaceMarker w .defaultValue [v, .none]
  | none => d

/-- Makes the property read-only, with a value that a calculator gives. -/
def calculate (d : Descriptor) (calculator : ClassId) : Descriptor :=
  ((d.removeKind w MarkerShape.defaultValue.kind).attach (Marker.stock .readOnly [.bool true])).attach
    (Marker.stock .modelValueCalculatorWrapper
      [.type (.cls calculator), .none, .none, .none, .none])

def hide (d : Descriptor) : Descriptor := d.attach (Marker.stock .browsable [.bool false])

def removeConverters (d : Descriptor) (start : String) : Except EmissionError Descriptor := do
  let kept ← d.attachments.filterM fun a =>
    if isOf w MarkerShape.typeConverter.kind a.marker then
      return !Text.startsWith start (← a.marker.converterName)
    else return true
  return { d with attachments := kept }

end Descriptor

namespace FilterAction

/-- The descriptor after the action, or `none` when the action rejects it. -/
def run (w : World) (d : Descriptor) : FilterAction → Except EmissionError (Option Descriptor)
  | .eligible e => .ok (if e.accepts w d then some d else none)
  | .only names => .ok (if names.contains d.name then some d else none)
  | .except names => .ok (if names.contains d.name then none else some d)
  | .setCategory names => .ok (d.setCategory w names)
  | .setBrowsable names => .ok (d.setBrowsable w names)
  | .setDefault names => .ok (d.setDefault w names)
  | .calculate names => .ok (match names.lookup d.name with
    | some c => d.calculate w c
    | none => d)
  | .hide names => .ok (if names.contains d.name then d.hide else d)
  | .rename names => .ok (some { d with name := (names.lookup d.name).getD d.name })
  | .retype names => .ok (some { d with type := (names.lookup d.name).getD d.type })
  | .add name m => .ok (if d.name = name then d.attach m else d)
  | .removeKind kind => .ok (d.removeKind w kind)
  | .removeConverters start => (d.removeConverters w start).map some
  | .own decision => .ok (decision d)

end FilterAction

namespace PropertyFilter

def runActions (w : World) : List FilterAction → Descriptor → Except EmissionError (Option Descriptor)
  | [], d => .ok (some d)
  | a :: rest, d =>
    match a.run w d with
    | .ok (some d) => runActions w rest d
    | .ok none => .ok none
    | .error e => .error e

def run (w : World) (f : PropertyFilter) (d : Descriptor) : Except EmissionError (Option Descriptor) :=
  runActions w (f.getD []) d

def apply (w : World) (f : PropertyFilter) (ds : List Descriptor) :
    Except EmissionError (List Descriptor) :=
  return (← ds.mapM (run w f)).filterMap id

end PropertyFilter

end ModelContracts
