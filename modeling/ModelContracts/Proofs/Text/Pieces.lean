import Mathlib.Data.List.TakeWhile
import ModelContracts.Text.Pieces

/-!
Texts cut at a separator. What is cut at one separator falls into what both sides are cut into, no piece
has the separator, and so the last piece of a text is the last piece of whatever ends it. A text is cut in
two at the first separator.
-/

namespace ModelContracts.Text

theorem pieces_of_not_mem {sep : Char} {cs : List Char} (h : sep ∉ cs) : pieces sep cs = [cs] := by
  induction cs with
  | nil => rfl
  | cons c cs ih =>
    have hc : c ≠ sep := by
      rintro rfl
      exact h List.mem_cons_self
    rw [pieces, if_neg hc, ih fun hmem => h (List.mem_cons_of_mem c hmem)]

theorem pieces_append (sep : Char) (as bs : List Char) :
    pieces sep (as ++ sep :: bs) = pieces sep as ++ pieces sep bs := by
  induction as with
  | nil => simp [pieces]
  | cons a as ih =>
    by_cases ha : a = sep
    · simp [pieces, ha, ih]
    · rcases hp : pieces sep as with _ | ⟨p, ps⟩
      · exact (pieces_ne_nil _ _ hp).elim
      · simp [pieces, ha, ih, hp]

theorem pieces_line {sep : Char} {line : List Char} (rest : List Char) (h : sep ∉ line) :
    pieces sep (line ++ sep :: rest) = line :: pieces sep rest := by
  rw [pieces_append, pieces_of_not_mem h, List.singleton_append]

theorem pieces_eq (sep : Char) (cs : List Char) :
    pieces sep cs = cs.takeWhile (· ≠ sep) :: (pieces sep cs).tail := by
  induction cs with
  | nil => rfl
  | cons c cs ih =>
    by_cases hc : c = sep
    · simp [pieces, hc]
    · rw [pieces, if_neg hc, ih]
      simp [hc]

theorem split_eq (sep : Char) (s : String) : split sep s = firstPiece sep s :: (split sep s).tail := by
  rw [split, pieces_eq]
  rfl

theorem split_of_firstPiece {sep : Char} {s : String} (h : firstPiece sep s = s) :
    split sep s = [s] := by
  have hall : s.toList.takeWhile (· ≠ sep) = s.toList := by
    rw [← String.toList_inj, firstPiece, String.toList_ofList] at h
    exact h
  have hsep : sep ∉ s.toList := fun hmem => by
    simpa using List.takeWhile_eq_self_iff.1 hall sep hmem
  rw [split, pieces_of_not_mem hsep, List.map_singleton, String.ofList_toList]

theorem lastPiece_append (sep : Char) {s t u : String} (h : s.toList = t.toList ++ sep :: u.toList) :
    lastPiece sep s = lastPiece sep u := by
  have hlast : (pieces sep s.toList).getLast (pieces_ne_nil _ _) =
      (pieces sep u.toList).getLast (pieces_ne_nil _ _) := by
    simp only [h, pieces_append]
    rw [List.getLast_append_of_ne_nil]
  rw [lastPiece, hlast, lastPiece]

theorem not_mem_of_mem_pieces {sep : Char} {cs p : List Char} (h : p ∈ pieces sep cs) : sep ∉ p := by
  induction cs generalizing p with
  | nil => simp [List.mem_singleton.1 h]
  | cons c cs ih =>
    rw [pieces] at h
    by_cases hc : c = sep
    · rw [if_pos hc] at h
      rcases List.mem_cons.1 h with rfl | h
      · exact List.not_mem_nil
      · exact ih h
    · rw [if_neg hc] at h
      rcases hp : pieces sep cs with _ | ⟨q, qs⟩
      · exact (pieces_ne_nil _ _ hp).elim
      · rw [hp] at h ih
        rcases List.mem_cons.1 h with rfl | h
        · have hq := ih List.mem_cons_self
          simp [hq, Ne.symm hc]
        · exact ih (List.mem_cons_of_mem q h)

/-- A text is cut where a character stands for the first time. -/
theorem span_upto {stop : Char} {front : List Char} (h : stop ∉ front) (rest : List Char) :
    (front ++ stop :: rest).takeWhile (· ≠ stop) = front ∧
      (front ++ stop :: rest).dropWhile (· ≠ stop) = stop :: rest := by
  have hfront : ∀ c ∈ front, decide (c ≠ stop) = true := by
    intro c hc
    refine decide_eq_true ?_
    rintro rfl
    exact h hc
  rw [List.takeWhile_append_of_pos hfront, List.dropWhile_append_of_pos hfront,
    List.takeWhile_cons_of_neg (by simp), List.dropWhile_cons_of_neg (by simp), List.append_nil]
  exact ⟨rfl, rfl⟩

theorem cut_append {sep : Char} {s t u : String} (h : s.toList = t.toList ++ sep :: u.toList)
    (hsep : sep ∉ t.toList) : cut sep s = some (t, u) := by
  obtain ⟨hfirst, hrest⟩ := span_upto hsep u.toList
  rw [cut, firstPiece, h, hrest, hfirst, String.ofList_toList]
  dsimp only
  rw [String.ofList_toList]

theorem cut_of_not_mem {sep : Char} {s : String} (h : sep ∉ s.toList) : cut sep s = none := by
  have hall : ∀ c ∈ s.toList, decide (c ≠ sep) = true := fun c hc =>
    decide_eq_true fun heq => h (heq ▸ hc)
  have hdrop : s.toList.dropWhile (· ≠ sep) = [] := List.dropWhile_eq_nil_iff.2 hall
  rw [cut, hdrop]

theorem cut_eq_some {sep : Char} {s t u : String} :
    cut sep s = some (t, u) ↔ s.toList = t.toList ++ sep :: u.toList ∧ sep ∉ t.toList := by
  constructor
  · intro h
    by_cases hsep : sep ∈ s.toList
    · obtain ⟨front, rest, hs, hfront⟩ := List.eq_append_cons_of_mem hsep
      have hcut : cut sep s = some (String.ofList front, String.ofList rest) :=
        cut_append (by simpa using hs) (by simpa using hfront)
      rw [hcut, Option.some.injEq, Prod.mk.injEq] at h
      obtain ⟨rfl, rfl⟩ := h
      simpa using ⟨hs, hfront⟩
    · rw [cut_of_not_mem hsep] at h
      cases h
  · rintro ⟨hs, hsep⟩
    exact cut_append hs hsep

end ModelContracts.Text
