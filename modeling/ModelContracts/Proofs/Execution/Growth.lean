import Mathlib.Tactic.SplitIfs
import ModelContracts.Build.Loading
import ModelContracts.Proofs.Running

/-!
What executing a source does to the world. It declares classes of its own, which carry the name and
the number of the module, and marks them; all else in the world stays as it is.
-/

namespace ModelContracts

namespace World

/-- The world has more classes of a module, and more markers on them, and is else the same. -/
structure Grown (name : String) (number : Nat) (w w' : World) : Prop where
  importable : w'.importable = w.importable
  packages : w'.packages = w.packages
  modules : w'.modules = w.modules
  nested : w'.nested = w.nested
  find : ∀ c, ¬ (c.moduleName = name ∧ c.generation = number) → w'.find? c = w.find? c
  markers : ∀ c, ¬ (c.moduleName = name ∧ c.generation = number) → w'.markersOf c = w.markersOf c

namespace Grown

variable {name : String} {number : Nat} {w w' w'' : World}

theorem refl (w : World) : Grown name number w w := ⟨rfl, rfl, rfl, rfl, fun _ _ => rfl, fun _ _ => rfl⟩

theorem trans (h : Grown name number w w') (h' : Grown name number w' w'') :
    Grown name number w w'' where
  importable := h'.importable.trans h.importable
  packages := h'.packages.trans h.packages
  modules := h'.modules.trans h.modules
  nested := h'.nested.trans h.nested
  find c hc := (h'.find c hc).trans (h.find c hc)
  markers c hc := (h'.markers c hc).trans (h.markers c hc)

end Grown

theorem find?_declared (w : World) (i : ClassInfo) (d : ClassId) :
    { w with classes := w.classes ++ [i] }.find? d =
      (w.find? d).or (if i.id = d then some i else none) := by
  rw [World.find?, List.find?_append, List.find?_singleton]
  simp [World.find?]

theorem found_declared {w : World} {i j : ClassInfo} {d : ClassId}
    (h : { w with classes := w.classes ++ [i] }.find? d = some j) : w.find? d = some j ∨ j = i := by
  rw [find?_declared] at h
  rcases hfind : w.find? d with _ | j'
  · rw [hfind, Option.none_or] at h
    split_ifs at h
    cases h
    exact Or.inr rfl
  · rw [hfind] at h
    exact Or.inl h

theorem markersOf_mark (w : World) (c : ClassId) (m : Marker) (d : ClassId) :
    (w.mark c m).markersOf d = if d = c then w.markersOf c ++ [m] else w.markersOf d := by
  simp only [World.mark, World.markersOf, lookup_setEntry]
  split_ifs <;> rfl

variable {name : String} {number : Nat}

theorem grown_declared (w : World) {i : ClassInfo} (hname : i.id.moduleName = name)
    (hnumber : i.id.generation = number) :
    Grown name number w { w with classes := w.classes ++ [i] } where
  importable := rfl
  packages := rfl
  modules := rfl
  nested := rfl
  find c hc := by
    have hne : i.id ≠ c := by
      rintro rfl
      exact hc ⟨hname, hnumber⟩
    rw [find?_declared, if_neg hne, Option.or_none]
  markers _ _ := rfl

theorem grown_mark (w : World) {c : ClassId} (m : Marker) (hname : c.moduleName = name)
    (hnumber : c.generation = number) : Grown name number w (w.mark c m) where
  importable := rfl
  packages := rfl
  modules := rfl
  nested := rfl
  find _ _ := rfl
  markers d hd := by
    have hne : d ≠ c := by
      rintro rfl
      exact hd ⟨hname, hnumber⟩
    rw [markersOf_mark, if_neg hne]

theorem grown_marks (w : World) {c : ClassId} (ms : List Marker) (hname : c.moduleName = name)
    (hnumber : c.generation = number) :
    Grown name number w (ms.foldl (fun w m => w.mark c m) w) := by
  induction ms generalizing w with
  | nil => exact .refl w
  | cons m ms ih => exact (w.grown_mark m hname hnumber).trans (ih (w.mark c m))

end World

namespace Execution

/-- A run keeps its name and its number, and the world grows by classes of the module. -/
structure Grows (x y : Execution) : Prop where
  name : y.name = x.name
  number : y.number = x.number
  world : World.Grown x.name x.number x.world y.world

variable {x y : Execution}

theorem Grows.refl (x : Execution) : Grows x x := ⟨rfl, rfl, .refl x.world⟩

theorem Grows.trans {z : Execution} (h : Grows x y) (h' : Grows y z) : Grows x z where
  name := h'.name.trans h.name
  number := h'.number.trans h.number
  world := h.world.trans (by simpa only [h.name, h.number] using h'.world)

theorem grows_set (x : Execution) (name : String) (e : Entity) : Grows x (x.set name e) :=
  ⟨rfl, rfl, .refl x.world⟩

/-- What a run binds is dropped when only the state before it is returned. -/
theorem map_const_ok {ε α β : Type} {e : Except ε α} {b b' : β}
    (h : e.map (fun _ => b) = .ok b') : b' = b := by
  cases e <;> cases h
  rfl

theorem importName_grows {line : Nat} {module name : String}
    (h : importName line module x name = .ok y) : Grows x y := by
  unfold importName at h
  split at h
  · cases h
    exact grows_set x name _
  · cases h

theorem importNames_grows {line : Nat} {module : String} {names : List String}
    (h : importNames line module names x = .ok y) : Grows x y := by
  unfold importNames at h
  split at h
  · cases h
  · exact foldlM_ok (fun _ _ _ hz hname => Grows.trans hz (importName_grows hname)) (.refl x) h

theorem runSimple_grows {line : Nat} {s : PlainStatement} (h : runSimple line x s = .ok y) :
    Grows x y := by
  cases s with
  | nothing | call =>
    cases h
    exact .refl x
  | setText name | setNumber name =>
    cases h
    exact grows_set x name _
  | importNames => exact importNames_grows h
  | importModule module name =>
    simp only [runSimple, importModule] at h
    split at h
    · cases h
    · cases h
      exact grows_set x name _
  | fail =>
    simp only [runSimple, fail] at h
    split at h <;> cases h
  | mention =>
    rw [map_const_ok h]
    exact .refl x

theorem runPlain_grows {line : Nat} {s : PlainStatement} (h : runPlain line x s = .ok y) :
    Grows x y := by
  unfold runPlain at h
  split at h
  · split at h
    · rw [map_const_ok h]
      exact .refl x
    · split at h
      · cases h
      · cases h
      · cases h
        exact .refl x
  · exact runSimple_grows h

theorem runClass_grows {decorators : List Decorator} {body : List Definition} {line : Nat} {name : String}
    {base : Option String} (h : runClass decorators line name base body x = .ok y) :
    Grows x y := by
  obtain ⟨markers, -, h₁⟩ := except_bind_ok h
  obtain ⟨c, -, h₂⟩ := except_bind_ok h₁
  obtain ⟨_, -, h₃⟩ := except_bind_ok h₂
  cases h₃
  have hdeclared : World.Grown x.name x.number x.world (x.declareClass name c).world :=
    World.grown_declared x.world rfl rfl
  exact ⟨rfl, rfl, hdeclared.trans (World.grown_marks _ _ rfl rfl)⟩

theorem run_grows {s : Statement} (h : x.run s = .ok y) : Grows x y := by
  cases s with
  | plain => exact runPlain_grows h
  | function name =>
    cases h
    exact ⟨rfl, rfl, .refl x.world⟩
  | classDef => exact runClass_grows h

theorem runAll_grows {statements : List Statement} (h : x.runAll statements = .ok y) :
    Grows x y :=
  foldlM_ok (fun _ _ _ hz hrun => Grows.trans hz (run_grows hrun)) (.refl x) h

end Execution

end ModelContracts
