import ModelContracts.TypeExpr.Equality

/-! Markers: immutable values that annotate properties and classes. -/

namespace ModelContracts

structure Marker where
  kind : ClassId
  shape : MarkerShape
  args : List Value

namespace FieldDefault

def noRefreshMode : Value := .member ClassId.refreshMode .plain (some "NONE") (.int 0)

def value? : FieldDefault → Option Value
  | .mandatory => Option.none
  | .none => some Value.none
  | .true => some (.bool Bool.true)
  | .emptyText => some (.text "")
  | .noRefresh => some noRefreshMode

end FieldDefault

namespace Marker

/-- The given arguments followed by the defaults of the fields that are left out; `none` when there
are too many or a mandatory one is missing. -/
def filled? : List (String × FieldDefault) → List Value → Option (List Value)
  | [], [] => some []
  | [], _ :: _ => none
  | _ :: fields, v :: vs => (filled? fields vs).map (v :: ·)
  | (_, d) :: fields, [] => do
    let v ← d.value?
    return v :: (← filled? fields [])

def make? (kind : ClassId) (shape : MarkerShape) (args : List Value) : Option Marker :=
  (filled? shape.fields args).map (Marker.mk kind shape)

def stock (shape : MarkerShape) (args : List Value) : Marker := ⟨shape.kind, shape, args⟩

def toValue (m : Marker) : Value := .marker m.kind m.shape m.args

def ofValue? : Value → Option Marker
  | .marker kind shape args => some ⟨kind, shape, args⟩
  | _ => none

/-- The field of a name; `None` for a name that the kind does not have. -/
def field (m : Marker) (name : String) : Value :=
  ((m.shape.fields.map (·.1)).zip m.args).lookup name |>.getD .none

def equal (m n : Marker) : Bool := m.toValue.equal n.toValue

theorem filled?_nil_of_serializable : filled? MarkerShape.serializable.fields [] = some [] := rfl

theorem ofValue?_toValue (m : Marker) : ofValue? m.toValue = some m := rfl

end Marker

end ModelContracts
