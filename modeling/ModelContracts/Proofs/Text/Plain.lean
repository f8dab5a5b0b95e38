import Mathlib.Tactic.ByContra
import Mathlib.Tactic.SplitIfs
import ModelContracts.Reference.Ledger

/-!
Names that are not taken apart. A reader takes a line apart at blanks, brackets, quotes, colons and commas,
and at the sign of decorators. Word characters are none of these, so the alias of a module never has one.
-/

namespace ModelContracts.Text

def marks : List Char := ['(', ')', '[', ']', ':', ',', '@', '\'', '\"']

/-- Blanks, and the other characters at which a reader takes a line apart. -/
def isMark (c : Char) : Bool := isBlank c || marks.contains c

structure Plain (s : String) : Prop where
  nonempty : s.toList ≠ []
  marks : ∀ c ∈ s.toList, isMark c = false

/-- What has no blanks is trimmed already. -/
theorem trimmedChars_of_not_blank {cs : List Char} (h : ∀ c ∈ cs, isBlank c = false) :
    trimmedChars cs = cs := by
  have hdrop : ∀ ds : List Char, (∀ c ∈ ds, isBlank c = false) → ds.dropWhile isBlank = ds := by
    intro ds hds
    cases ds with
    | nil => rfl
    | cons d ds => rw [List.dropWhile_cons_of_neg (by simp [hds d List.mem_cons_self])]
  rw [trimmedChars, hdrop cs h, hdrop _ fun c hc => h c (List.mem_reverse.1 hc), List.reverse_reverse]

/-- The text stands in one line. -/
def OneLine (s : String) : Prop := '\n' ∉ s.toList ∧ '\r' ∉ s.toList

instance (s : String) : Decidable (Plain s) :=
  decidable_of_iff (s.toList ≠ [] ∧ ∀ c ∈ s.toList, isMark c = false)
    ⟨fun h => ⟨h.1, h.2⟩, fun h => ⟨h.nonempty, h.marks⟩⟩

instance (s : String) : Decidable (OneLine s) := inferInstanceAs (Decidable (_ ∧ _))

variable {s t : String}

theorem Plain.not_mem (h : Plain s) {c : Char} (hc : isMark c = true) : c ∉ s.toList := by
  intro hmem
  rw [h.marks c hmem] at hc
  cases hc

theorem Plain.not_blank (h : Plain s) {c : Char} (hc : c ∈ s.toList) : isBlank c = false := by
  have hmark := h.marks c hc
  rw [isMark, Bool.or_eq_false_iff] at hmark
  exact hmark.1

theorem Plain.trimmed (h : Plain s) : trimmedChars s.toList = s.toList :=
  trimmedChars_of_not_blank fun _ => h.not_blank

theorem Plain.oneLine (h : Plain s) : OneLine s := ⟨h.not_mem (by decide), h.not_mem (by decide)⟩

theorem Plain.append (hs : Plain s) (ht : ∀ c ∈ t.toList, isMark c = false) : Plain (s ++ t) where
  nonempty := by
    rw [String.toList_append]
    exact List.append_ne_nil_of_left_ne_nil hs.nonempty _
  marks c hc := by
    rw [String.toList_append, List.mem_append] at hc
    exact hc.elim (hs.marks c) (ht c)

theorem OneLine.append (hs : OneLine s) (ht : OneLine t) : OneLine (s ++ t) := by
  unfold OneLine
  rw [String.toList_append, List.mem_append, List.mem_append, not_or, not_or]
  exact ⟨⟨hs.1, ht.1⟩, hs.2, ht.2⟩

/-- The runs of a set of characters, each with the first code point behind it. -/
def runs : List Nat → List (Nat × Nat)
  | lo :: hi :: rest => (lo, hi) :: runs rest
  | _ => []

theorem mem_runs {edges : List Nat} {n : Nat} (heven : edges.length % 2 = 0)
    (h : CharSet.inside false edges n = true) :
    ∃ r ∈ runs edges, ∃ k < r.2 - r.1, n = r.1 + k := by
  fun_induction runs edges with
  | case1 lo hi rest ih =>
    rw [CharSet.inside] at h
    split_ifs at h with hlo
    rw [CharSet.inside] at h
    split_ifs at h with hhi
    · exact ⟨(lo, hi), List.mem_cons_self, n - lo, by omega, by omega⟩
    · obtain ⟨r, hr, hrun⟩ := ih (by simp at heven; omega) h
      exact ⟨r, List.mem_cons_of_mem _ hr, hrun⟩
  | case2 edges hedges =>
    rcases edges with _ | ⟨lo, _ | ⟨hi, rest⟩⟩
    · cases h
    · cases heven
    · exact (hedges lo hi rest rfl).elim

/-- No word character is a mark. -/
theorem isMark_of_word {c : Char} (h : wordChars.contains c = true) : isMark c = false := by
  have hblanks : ∀ r ∈ runs blankChars.edges, ∀ k < r.2 - r.1,
      CharSet.inside false wordChars.edges (r.1 + k) = false := by decide +kernel
  have hothers : ∀ d ∈ marks, wordChars.contains d = false := by decide +kernel
  by_contra hmark
  rw [Bool.not_eq_false, isMark, Bool.or_eq_true] at hmark
  rcases hmark with hblank | hother
  · obtain ⟨r, hr, k, hk, hpoint⟩ := mem_runs (by decide) hblank
    rw [CharSet.contains, hpoint, hblanks r hr k hk] at h
    cases h
  · rw [hothers c (List.contains_iff_mem.1 hother)] at h
    cases h

/-- The alias of a module is not taken apart, whatever the name of the module. -/
theorem plain_moduleAlias (module : String) : Plain (moduleAlias module) where
  nonempty := by simp [moduleAlias]
  marks c hc := by
    simp only [moduleAlias, String.toList_append, String.toList_ofList, List.mem_append,
      List.mem_map] at hc
    rcases hc with hc | ⟨a, -, rfl⟩
    · rw [List.mem_singleton.1 hc]
      decide
    · unfold wordOrUnderscore
      split_ifs with hword
      · exact isMark_of_word hword
      · decide

end ModelContracts.Text
