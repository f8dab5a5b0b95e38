/-! Texts in order, by the code points of their characters. -/

namespace ModelContracts.Text

/-- Puts a text in front of the first one that is not before it. -/
def place (s : String) : List String → List String
  | [] => [s]
  | t :: rest => if s ≤ t then s :: t :: rest else t :: place s rest

def sorted : List String → List String
  | [] => []
  | s :: rest => place s (sorted rest)

theorem place_perm (s : String) (l : List String) : (place s l).Perm (s :: l) := by
  induction l with
  | nil => exact .refl _
  | cons t rest ih =>
    unfold place
    split
    · exact .refl _
    · exact (ih.cons t).trans (.swap s t rest)

theorem sorted_perm (l : List String) : (sorted l).Perm l := by
  induction l with
  | nil => exact .refl _
  | cons s rest ih => exact (place_perm s _).trans (ih.cons s)

theorem place_pairwise {s : String} {l : List String} (h : l.Pairwise (· ≤ ·)) :
    (place s l).Pairwise (· ≤ ·) := by
  induction l with
  | nil => simp [place]
  | cons t rest ih =>
    obtain ⟨ht, hrest⟩ := List.pairwise_cons.1 h
    unfold place
    split
    next hst =>
      refine List.pairwise_cons.2 ⟨fun u hu => ?_, h⟩
      rcases List.mem_cons.1 hu with rfl | hu
      · exact hst
      · exact String.le_trans hst (ht u hu)
    next hst =>
      refine List.pairwise_cons.2 ⟨fun u hu => ?_, ih hrest⟩
      rcases List.mem_cons.1 ((place_perm s rest).mem_iff.1 hu) with rfl | hu
      · exact (String.le_total u t).resolve_left hst
      · exact ht u hu

theorem sorted_pairwise (l : List String) : (sorted l).Pairwise (· ≤ ·) := by
  induction l with
  | nil => exact .nil
  | cons s rest ih => exact place_pairwise ih

/-- Texts in order are the same in whatever order they were given. -/
theorem sorted_eq_of_perm {l l' : List String} (h : l.Perm l') : sorted l = sorted l' :=
  ((sorted_perm l).trans (h.trans (sorted_perm l').symm)).eq_of_pairwise
    (fun _ _ _ _ => String.le_antisymm) (sorted_pairwise l) (sorted_pairwise l')

theorem sorted_eq_mergeSort (l : List String) : sorted l = l.mergeSort (· ≤ ·) := by
  refine List.Perm.eq_of_pairwise (fun a b _ _ => String.le_antisymm) (sorted_pairwise l) ?_
    ((sorted_perm l).trans (List.mergeSort_perm l _).symm)
  have h := @List.pairwise_mergeSort String (fun a b => decide (a ≤ b))
    (fun a b c hab hbc => by simpa using String.le_trans (by simpa using hab) (by simpa using hbc))
    (fun a b => by simpa using String.le_total a b) l
  exact h.imp fun hab => by simpa using hab

end ModelContracts.Text
