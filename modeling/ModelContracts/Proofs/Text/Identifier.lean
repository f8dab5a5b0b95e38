import Mathlib.Data.List.Chain
import Mathlib.Data.List.TakeWhile
import ModelContracts.Proofs.Text.Plain
import ModelContracts.Text.Identifier

/-!
Identifiers by their characters. Whatever an identifier can start with can also stand in one, so texts
that go on like identifiers are closed under joining, and one that is joined to an identifier makes a
longer identifier.
-/

namespace ModelContracts.Text

theorem fst_mem_of_mem_runs {edges : List Nat} {r : Nat × Nat} (h : r ∈ runs edges) : r.1 ∈ edges := by
  fun_induction runs edges with
  | case1 lo hi rest ih =>
    rcases List.mem_cons.1 h with rfl | h
    · exact List.mem_cons_self
    · exact List.mem_cons_of_mem _ (List.mem_cons_of_mem _ (ih h))
  | case2 => cases h

/-- A set has what lies in one of its runs. -/
theorem inside_of_mem_runs {edges : List Nat} {r : Nat × Nat} {n : Nat}
    (hrising : edges.Pairwise (· < ·)) (hr : r ∈ runs edges) (hlo : r.1 ≤ n) (hhi : n < r.2) :
    CharSet.inside false edges n = true := by
  fun_induction runs edges with
  | case1 lo hi rest ih =>
    rw [CharSet.inside]
    rcases List.mem_cons.1 hr with rfl | hr
    · rw [if_neg (by omega), CharSet.inside, if_pos hhi]
      rfl
    · -- A later run starts behind this one.
      obtain ⟨hfirst, hrest⟩ := List.pairwise_cons.1 hrising
      obtain ⟨hsecond, hrest⟩ := List.pairwise_cons.1 hrest
      have hstart := fst_mem_of_mem_runs hr
      have hlo' := hfirst r.1 (List.mem_cons_of_mem _ hstart)
      have hhi' := hsecond r.1 hstart
      rw [if_neg (by omega), CharSet.inside, if_neg (by omega)]
      exact ih hrest hr
  | case2 => cases hr

/-- The runs that are left when those inside the second runs are taken away, in one pass over both. -/
def outside (rs : List (Nat × Nat)) (qs : List (Nat × Nat)) : List (Nat × Nat) :=
  qs.foldl (fun rs q => rs.dropWhile fun r => q.1 ≤ r.1 && r.2 ≤ q.2) rs

theorem mem_outside {rs qs : List (Nat × Nat)} {r : Nat × Nat} (h : r ∈ rs) :
    r ∈ outside rs qs ∨ ∃ q ∈ qs, q.1 ≤ r.1 ∧ r.2 ≤ q.2 := by
  induction qs generalizing rs with
  | nil => exact .inl h
  | cons q qs ih =>
    rw [← List.takeWhile_append_dropWhile (p := fun r => q.1 ≤ r.1 && r.2 ≤ q.2) (l := rs)] at h
    rcases List.mem_append.1 h with htaken | hleft
    · exact .inr ⟨q, List.mem_cons_self, by simpa using List.mem_takeWhile_imp htaken⟩
    · exact (ih hleft).imp id fun ⟨q', hq', hin⟩ => ⟨q', List.mem_cons_of_mem q hq', hin⟩

theorem continue_of_start {c : Char} (h : identifierStart.contains c = true) :
    identifierContinue.contains c = true := by
  have hrising : identifierContinue.edges.IsChain (· < ·) := by decide +kernel
  have hwithin : outside (runs identifierStart.edges) (runs identifierContinue.edges) = [] := by
    decide +kernel
  obtain ⟨r, hr, k, hk, hpoint⟩ := mem_runs (by decide +kernel) h
  rcases mem_outside hr with hleft | ⟨q, hq, hlo, hhi⟩
  · rw [hwithin] at hleft
    cases hleft
  · exact inside_of_mem_runs (List.isChain_iff_pairwise.1 hrising) hq (by omega) (by omega)

/-- The text can stand behind an identifier. -/
def Continues (s : String) : Prop := ∀ c ∈ s.toList, identifierContinue.contains c = true

theorem isIdentifier_cons {c : Char} {cs : List Char} : isIdentifier (String.ofList (c :: cs)) = true ↔
    identifierStart.contains c = true ∧ ∀ d ∈ cs, identifierContinue.contains d = true := by
  rw [isIdentifier, String.toList_ofList, Bool.and_eq_true, List.all_eq_true]

variable {s t : String}

theorem continues_append : Continues (s ++ t) ↔ Continues s ∧ Continues t := by
  simp only [Continues, String.toList_append, List.mem_append, or_imp, forall_and]

theorem continues_of_isIdentifier (h : isIdentifier s = true) : Continues s := by
  unfold isIdentifier at h
  unfold Continues
  cases hs : s.toList with
  | nil => exact nofun
  | cons c rest =>
    rw [hs, Bool.and_eq_true, List.all_eq_true] at h
    exact List.forall_mem_cons.2 ⟨continue_of_start h.1, h.2⟩

theorem isIdentifier_append (h : isIdentifier s = true) :
    isIdentifier (s ++ t) = true ↔ Continues t := by
  constructor
  · intro hboth
    exact (continues_append.1 (continues_of_isIdentifier hboth)).2
  · intro ht
    unfold isIdentifier at h ⊢
    cases hs : s.toList with
    | nil => rw [hs] at h; cases h
    | cons c rest =>
      rw [hs, Bool.and_eq_true] at h
      rw [String.toList_append, hs, List.cons_append, Bool.and_eq_true, List.all_append,
        Bool.and_eq_true]
      exact ⟨h.1, h.2, List.all_eq_true.2 ht⟩

end ModelContracts.Text
