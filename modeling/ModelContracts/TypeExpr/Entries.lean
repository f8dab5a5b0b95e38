import ModelContracts.TypeExpr.Equality

/-!
The entries of a mapping. A key is found at itself and at its equals; a new one goes behind the others.
-/

namespace ModelContracts

namespace Value

/-- The same number in the same form. This holds also of a number that is none, which equals nothing. -/
def sameNumber : Value → Value → Bool
  | .float x, .float y => x = y
  | .complex re im, .complex re' im' => re = re' && im = im'
  | .decimal x, .decimal y => x = y
  | _, _ => false

def sameKey (a b : Value) : Bool := a.equal b || a.sameNumber b

end Value

abbrev Entries := List (Value × Value)

namespace Entries

def find? (key : Value) : Entries → Option Value
  | [] => none
  | (k, v) :: rest => if k.sameKey key then some v else find? key rest

def set (key value : Value) : Entries → Entries
  | [] => [(key, value)]
  | (k, v) :: rest => if k.sameKey key then (k, value) :: rest else (k, v) :: set key value rest

def keys (es : Entries) : List Value := es.map (·.1)

theorem keys_set (key value : Value) (es : Entries) :
    (es.set key value).keys =
      if (es.find? key).isSome then es.keys else es.keys ++ [key] := by
  induction es with
  | nil => rfl
  | cons e rest ih =>
    obtain ⟨k, v⟩ := e
    by_cases hk : k.sameKey key = true
    · simp [set, find?, keys, hk]
    · rw [Bool.not_eq_true] at hk
      simp only [keys] at ih
      simp only [set, find?, keys, hk, Bool.false_eq_true, if_false, List.map_cons, ih]
      split <;> simp

end Entries

end ModelContracts
