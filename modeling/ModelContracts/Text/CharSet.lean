/-!
Sets of characters, given by the code points at which membership changes, in rising order. The
first edge is the first member, the second the first code point after that run, and so on.
-/

namespace ModelContracts.Text

structure CharSet where
  edges : List Nat
deriving Repr, DecidableEq

/-- Whether `n` lies in a run, where `state` tells whether the points before the next edge do. -/
def CharSet.inside : Bool → List Nat → Nat → Bool
  | state, [], _ => state
  | state, e :: rest, n => if n < e then state else CharSet.inside (!state) rest n

def CharSet.contains (s : CharSet) (c : Char) : Bool :=
  CharSet.inside false s.edges c.toNat

def CharSet.run (lo hi : Nat) : CharSet := ⟨[lo, hi + 1]⟩

theorem CharSet.contains_run (lo hi : Nat) (c : Char) :
    (CharSet.run lo hi).contains c = (decide (lo ≤ c.toNat) && decide (c.toNat ≤ hi)) := by
  simp only [CharSet.run, CharSet.contains, CharSet.inside]
  by_cases h₁ : c.toNat < lo
  · have : ¬ lo ≤ c.toNat := by omega
    simp [h₁, this]
  · by_cases h₂ : c.toNat < hi + 1
    · simp [h₁, h₂]; omega
    · simp [h₁, h₂]; omega

theorem CharSet.contains_empty (c : Char) : (CharSet.mk []).contains c = false := rfl

/-- What holds of all characters in a list is decided by the list, not by the table of all characters. -/
instance decidableForallMem (p : Char → Prop) [DecidablePred p] (cs : List Char) :
    Decidable (∀ c ∈ cs, p c) := List.decidableBAll p cs

end ModelContracts.Text
