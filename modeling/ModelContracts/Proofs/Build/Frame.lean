import ModelContracts.Build.Builder
import ModelContracts.Proofs.Files

/-!
What a build may change. Whatever it does, it keeps to its own path: files at other places and modules
loaded from other paths stay. One that makes no module leaves all modules as they are; and one that
leaves nothing behind has deleted its file at most.
-/

namespace ModelContracts

open FileTree Building

namespace Session

/-- What every build leaves alone. -/
structure Frame (path : Path) (s s' : Session) : Prop where
  home : s'.files.home = s.files.home
  locked : s'.files.locked = s.files.locked
  sources : s.sources <+: s'.sources
  files : ∀ l, l ≠ s.files.resolve path → s'.files.file? l = s.files.file? l
  others : ∀ p, p ≠ path → s'.cache.loaded? p = s.cache.loaded? p

/-- No module was made: all modules are as before, and what was loaded from the path may be dropped. -/
structure Unbuilt (path : Path) (s s' : Session) : Prop extends Frame path s s' where
  world : s'.world = s.world
  modules : s'.cache.modules = s.cache.modules
  entry : s'.cache.loaded? path = s.cache.loaded? path ∨ s'.cache.loaded? path = none

/-- The file of the path is as before or gone, and so is what was loaded from it. -/
structure Kept (path : Path) (s s' : Session) : Prop extends Frame path s s' where
  entry : s'.cache.loaded? path = s.cache.loaded? path ∨ s'.cache.loaded? path = none
  file : s'.files.file? (s.files.resolve path) = s.files.file? (s.files.resolve path) ∨
    s'.files.file? (s.files.resolve path) = none

/-- A build that makes no module and leaves nothing behind. -/
structure Undone (path : Path) (s s' : Session) : Prop extends Unbuilt path s s', Kept path s s'

/-- The source stands in the file of the path. -/
structure Left (path : Path) (source : String) (s s' : Session) : Prop
    extends Unbuilt path s s' where
  file : s'.files.file? (s.files.resolve path) = some (Text.encodeUtf8 source)

variable {path : Path} {s s₁ s₂ : Session}

theorem Frame.resolve (h : Frame path s s₁) (p : Path) :
    s₁.files.resolve p = s.files.resolve p := resolve_of_home h.home p

theorem Frame.trans (h : Frame path s s₁) (h' : Frame path s₁ s₂) : Frame path s s₂ where
  home := h'.home.trans h.home
  locked := h'.locked.trans h.locked
  sources := h.sources.trans h'.sources
  files l hl := by
    rw [h'.files l (by rwa [h.resolve]), h.files l hl]
  others p hp := (h'.others p hp).trans (h.others p hp)

/-- What is the same or gone after each of two steps is the same or gone after both. -/
theorem same_or_gone {α : Type} {x y z : Option α} (h : y = x ∨ y = none) (h' : z = y ∨ z = none) :
    z = x ∨ z = none := by
  rcases h' with rfl | h'
  · exact h
  · exact Or.inr h'

theorem some_of_same_or_gone {α : Type} {x y : Option α} {a : α} (h : y = x ∨ y = none)
    (hy : y = some a) : x = some a := by
  rcases h with rfl | rfl
  · exact hy
  · cases hy

theorem Unbuilt.trans (h : Unbuilt path s s₁) (h' : Unbuilt path s₁ s₂) : Unbuilt path s s₂ where
  toFrame := h.toFrame.trans h'.toFrame
  world := h'.world.trans h.world
  modules := h'.modules.trans h.modules
  entry := same_or_gone h.entry h'.entry

theorem Kept.trans (h : Kept path s s₁) (h' : Kept path s₁ s₂) : Kept path s s₂ where
  toFrame := h.toFrame.trans h'.toFrame
  entry := same_or_gone h.entry h'.entry
  file := same_or_gone h.file (h.resolve path ▸ h'.file)

theorem Undone.refl (path : Path) (s : Session) : Undone path s s where
  home := rfl
  locked := rfl
  sources := List.prefix_refl _
  files _ _ := rfl
  others _ _ := rfl
  world := rfl
  modules := rfl
  entry := Or.inl rfl
  file := Or.inl rfl

theorem Undone.trans (h : Undone path s s₁) (h' : Undone path s₁ s₂) : Undone path s s₂ where
  toUnbuilt := h.toUnbuilt.trans h'.toUnbuilt
  file := (h.toKept.trans h'.toKept).file

instance (path : Path) : IsPreorder Session (Undone path) where
  refl := Undone.refl path
  trans _ _ _ := Undone.trans

theorem Undone.left {source : String} (h : Undone path s s₁) (h' : Left path source s₁ s₂) :
    Left path source s s₂ where
  toUnbuilt := h.toUnbuilt.trans h'.toUnbuilt
  file := by
    rw [← h.resolve]
    exact h'.file

/-- Only the files may differ, and they do not. -/
theorem Undone.of_files {t : FileTree} (h : SameFiles s.files t) :
    Undone path s { s with files := t } where
  home := h.home
  locked := h.locked
  sources := List.prefix_refl _
  files l _ := h.file l
  others _ _ := rfl
  world := rfl
  modules := rfl
  entry := Or.inl rfl
  file := Or.inl (h.file _)

end Session

open Session

theorem run_log (r : LogRecord) (s : Session) :
    (Building.log r).run s = (.ok ⟨⟩, { s with log := s.log ++ [r] }) := rfl

theorem run_filing {α : Type} (m : Filing α) (s : Session) : (filing m).run s =
    ((m.run s.files).1.mapError BuildError.file, { s with files := (m.run s.files).2 }) := rfl

theorem mapError_error {ε ε' α : Type} {f : ε → ε'} {x : Except ε α} {e : ε'}
    (h : x.mapError f = .error e) : ∃ e', e = f e' := by
  cases x with
  | error e' =>
    cases h
    exact ⟨e', rfl⟩
  | ok a => cases h

/-! Neither files nor a synthesis fail for the name of a file. -/

theorem filing_error {α : Type} {m : Filing α} {s s' : Session} {e : BuildError}
    (h : (filing m).run s = (.error e, s')) : e ≠ .extension := by
  obtain ⟨e', rfl⟩ := mapError_error (congrArg Prod.fst h)
  exact nofun

theorem synthesizing_error {α : Type} {start : Draft} {m : Synthesis α} {s s' : Session}
    {e : BuildError} (h : (synthesizing start m).run s = (.error e, s')) : e ≠ .extension := by
  obtain ⟨e', rfl⟩ := mapError_error (congrArg Prod.fst h)
  exact nofun

/-! Steps that delete at most. -/

section

variable (path : Path)

theorem log_undone (r : LogRecord) : Keeps (Undone path) (Building.log r) :=
  fun s => { Undone.refl path s with }

theorem grown_undone (s : Session) (source : String) :
    Undone path s { s with sources := s.sources ++ [source] } :=
  { Undone.refl path s with sources := List.prefix_append _ _ }

theorem filing_undone {α : Type} {m : Filing α} (h : Keeps SameFiles m) :
    Keeps (Undone path) (filing m) := fun s => Undone.of_files (h s.files)

theorem synthesizing_undone {α : Type} (start : Draft) (m : Synthesis α) :
    Keeps (Undone path) (synthesizing start m) := fun s => { Undone.refl path s with }

end

end ModelContracts
