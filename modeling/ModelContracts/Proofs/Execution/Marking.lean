import Mathlib.Tactic.SplitIfs
import ModelContracts.Proofs.Execution.Growth

/-!
What decorators leave on a class. Each decorator that is a marker is put on the class below it, the last
one first, and on no other class.
-/

namespace ModelContracts

theorem World.markersOf_marks (w : World) (c : ClassId) (ms : List Marker) (d : ClassId) :
    (ms.foldl (fun w m => w.mark c m) w).markersOf d =
      if d = c then w.markersOf c ++ ms else w.markersOf d := by
  induction ms generalizing w with
  | nil => split_ifs with hd <;> simp [hd]
  | cons m ms ih =>
    rw [List.foldl_cons, ih, markersOf_mark, markersOf_mark, if_pos rfl]
    split_ifs
    · rw [List.append_assoc, List.singleton_append]
    · rfl

namespace Execution

variable {x y : Execution} {decorators : List Decorator} {body : List Definition} {line : Nat} {n : String}
  {base : Option String}

theorem runClass_markers (h : runClass decorators line n base body x = .ok y) :
    ∃ ms, decorators.mapM x.decoratorMarker = .ok ms ∧ ∀ d, y.world.markersOf d =
      if d = ⟨x.name, n, x.number⟩ then x.world.markersOf d ++ (ms.filterMap id).reverse
      else x.world.markersOf d := by
  obtain ⟨ms, hms, h₁⟩ := except_bind_ok h
  obtain ⟨c, -, h₂⟩ := except_bind_ok h₁
  obtain ⟨_, -, h₃⟩ := except_bind_ok h₂
  cases h₃
  refine ⟨ms, hms, fun d => ?_⟩
  have hdeclared (e : ClassId) : (x.declareClass n c).world.markersOf e = x.world.markersOf e := rfl
  dsimp only
  rw [World.markersOf_marks, hdeclared, hdeclared]
  split_ifs with hd
  · rw [hd]
  · rfl

end Execution

end ModelContracts
