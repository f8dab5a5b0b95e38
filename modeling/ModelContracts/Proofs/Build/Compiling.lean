import ModelContracts.Proofs.Build.Frame

/-!
What the compilation of a source does to a session. Up to the point where the source is written it
changes nothing that counts; after that point the file is deleted again when the source does not
become a module.
-/

namespace ModelContracts

open FileTree Building Session

namespace Compilation

variable {path : Path} {s s' : Session} {e : BuildError} {source moduleName : String}

theorem checkLoader_error (h : (checkLoader source path).run s = (.error e, s')) :
    s' = s ∧ ((∃ f, e = .compile f) ∨ e = .extension ∧ loader path = .extension) := by
  unfold checkLoader at h
  split at h
  · cases h
  next hloader =>
    cases h
    exact ⟨rfl, Or.inr ⟨rfl, hloader⟩⟩
  · cases h
    exact ⟨rfl, Or.inl ⟨_, rfl⟩⟩

theorem checkLoader_ok (h : (checkLoader source path).run s = (.ok ⟨⟩, s')) :
    s' = s ∧ loader path = .source := by
  unfold checkLoader at h
  split at h
  next hloader =>
    cases h
    exact ⟨rfl, hloader⟩
  · cases h
  · cases h

theorem runSource_error {origin : String}
    (h : (runSource source path moduleName origin).run s = (.error e, s')) :
    s' = { s with sources := s.sources ++ [source] } ∧ ∃ f, e = .compile f := by
  unfold runSource at h
  rw [run_bind, run_get] at h
  dsimp only at h
  split at h
  · cases h
    exact ⟨rfl, _, rfl⟩
  · cases h

theorem runSource_ok {origin : String} {m : Module}
    (h : (runSource source path moduleName origin).run s = (.ok m, s')) :
    ∃ w log, outcome s.world (s.sources.length + 1) source moduleName = .ok (w, m) ∧
      s' = { s with sources := s.sources ++ [source], world := w, log := log } := by
  unfold runSource at h
  rw [run_bind, run_get] at h
  dsimp only at h
  split at h
  · cases h
  next w m' hm =>
    cases h
    exact ⟨w, _, hm, rfl⟩

/-- An execution fails with a diagnostic, or over a file that is named like a binary module. -/
theorem execute_error {fromFile : Bool}
    (h : (execute source path moduleName fromFile).run s = (.error e, s')) :
    Undone path s s' ∧ s'.files = s.files ∧
      ((∃ f, e = .compile f) ∨ e = .extension ∧ loader path = .extension) := by
  have grown := grown_undone path s source
  unfold execute at h
  split_ifs at h
  · rcases run_bind_error h with hcheck | ⟨_, s₁, hcheck, hrun⟩
    · obtain ⟨rfl, he⟩ := checkLoader_error hcheck
      exact ⟨Undone.refl path s', rfl, he⟩
    · obtain ⟨rfl, -⟩ := checkLoader_ok hcheck
      obtain ⟨rfl, he⟩ := runSource_error hrun
      exact ⟨grown, rfl, Or.inl he⟩
  · obtain ⟨rfl, he⟩ := runSource_error h
    exact ⟨grown, rfl, Or.inl he⟩

theorem deleteIfThere_written {tree : FileTree} {data : List UInt8}
    (hwritten : (Filing.write path data).run tree = (.ok ⟨⟩, s.files)) :
    (deleteIfThere path).run s =
      if path ∈ s.files.locked then (.error (.file .locked), s)
      else (.ok ⟨⟩, { s with files := s.files.removeFile (s.files.resolve path) }) := by
  have hdelete : (filing (Filing.delete path)).run s =
      if path ∈ s.files.locked then (.error (.file .locked), s)
      else (.ok ⟨⟩, { s with files := s.files.removeFile (s.files.resolve path) }) := by
    rw [run_filing, Filing.delete_written hwritten]
    split_ifs <;> rfl
  unfold deleteIfThere
  rw [run_tryCatch, hdelete]
  split_ifs <;> rfl

/-- A source that fails from the file to which it was just written stays there only if its file is
named like a binary module, or is locked. -/
theorem executeOrDelete_error {tree : FileTree} {data : List UInt8}
    (hwritten : (Filing.write path data).run tree = (.ok ⟨⟩, s.files))
    (h : (executeOrDelete source path moduleName).run s = (.error e, s')) :
    Undone path s s' ∧ (e ≠ .extension ∧ s'.files.file? (s.files.resolve path) = none ∨
      s'.files = s.files ∧ (e = .extension ∧ loader path = .extension ∨
        e = .file .locked ∧ path ∈ s.files.locked)) := by
  unfold executeOrDelete at h
  rw [run_tryCatch] at h
  rcases hexecute : (execute source path moduleName true).run s with ⟨e' | m, s₁⟩
  · rw [hexecute] at h
    obtain ⟨hundone, hfiles, ⟨f, rfl⟩ | ⟨rfl, hloader⟩⟩ := execute_error hexecute
    · -- The file is deleted before the failure is passed on.
      have hdelete := deleteIfThere_written (hfiles ▸ hwritten)
      dsimp only at h
      rw [run_bind, hdelete] at h
      rw [← hfiles]
      split_ifs at h with hlocked
      · cases h
        exact ⟨hundone, Or.inr ⟨rfl, Or.inr ⟨rfl, hlocked⟩⟩⟩
      · cases h
        have hgone : Undone path s₁
            { s₁ with files := s₁.files.removeFile (s₁.files.resolve path) } :=
          { Undone.refl path s₁ with
            files := fun l hl => by rw [file?_removeFile, if_neg hl]
            file := Or.inr (by rw [file?_removeFile, if_pos rfl]) }
        exact ⟨hundone.trans hgone, Or.inl ⟨nofun, by rw [file?_removeFile, if_pos rfl]⟩⟩
    · cases h
      exact ⟨hundone, Or.inr ⟨hfiles, Or.inl ⟨rfl, hloader⟩⟩⟩
  · rw [hexecute] at h
    cases h

theorem check_error {references : List String}
    (h : (check source references path).run s = (.error e, s')) : ∃ f, e = .compile f := by
  unfold check at h
  rw [run_bind, run_get] at h
  dsimp only at h
  split_ifs at h
  · cases h
  · cases h
    exact ⟨_, rfl⟩

theorem check_keeps (references : List String) (p : Path) :
    Keeps (fun t t' : Session => t' = t) (check source references p) := by
  intro s
  unfold check
  rw [run_bind, run_get]
  dsimp only
  split_ifs <;> rfl

/-- Writing changes nothing but the file. -/
theorem written_unbuilt {data : List UInt8} {tree : FileTree} (log : List LogRecord)
    (h : (Filing.write path data).run s.files = (.ok ⟨⟩, tree)) :
    Unbuilt path s { s with files := tree, log := log } ∧
      tree.file? (s.files.resolve path) = some data := by
  have htree := Filing.write_ok h
  refine ⟨{ (Undone.refl path s).toUnbuilt with
    home := by rw [htree]; rfl
    locked := by rw [htree]; rfl
    files := fun l hl => by rw [htree, file?_setFile, if_neg hl] }, ?_⟩
  rw [htree, file?_setFile, if_pos rfl]

/-- A source that is written and fails is gone again, with the same exceptions. -/
theorem install_error (h : (install source path moduleName).run s = (.error e, s')) :
    Undone path s s' ∧ e ≠ .extension ∨ Left path source s s' ∧
      (e = .extension ∧ loader path = .extension ∨
        e = .file .locked ∧ path ∈ s.files.locked) := by
  have hfolders := filing_undone path (Filing.makeFolders_keeps path.parent)
  rcases run_bind_error h with hr | ⟨_, s₁, hr, h₁⟩
  · exact Or.inl ⟨hfolders.of_run hr, filing_error hr⟩
  have hundone := hfolders.of_run hr
  rcases hwrite : (Filing.write path (Text.encodeUtf8 source)).run s₁.files with ⟨e' | _, tree⟩
  · rw [run_bind, run_filing, hwrite] at h₁
    cases h₁
    exact Or.inl ⟨hundone.trans (.of_files (Filing.write_error hwrite)), nofun⟩
  · rw [run_bind, run_filing, hwrite] at h₁
    dsimp only [Except.mapError] at h₁
    rw [run_bind_of_ok (run_log _ _)] at h₁
    obtain ⟨hwritten, hdata⟩ := written_unbuilt _ hwrite
    obtain ⟨hafter, hfile⟩ := executeOrDelete_error hwrite h₁
    have hunbuilt := (hundone.toUnbuilt.trans hwritten).trans hafter.toUnbuilt
    have hplace : tree.resolve path = s.files.resolve path :=
      (hundone.toUnbuilt.trans hwritten).resolve path
    rw [hplace] at hfile
    rcases hfile with ⟨he, hgone⟩ | ⟨hkept, he⟩
    · exact Or.inl ⟨{ hunbuilt with file := Or.inr hgone }, he⟩
    · refine Or.inr ⟨{ hunbuilt with file := ?_ }, ?_⟩
      · rw [hkept, ← hundone.resolve]
        exact hdata
      · rw [(hundone.toUnbuilt.trans hwritten).locked] at he
        exact he

/-- What becomes of a source that is compiled and fails. -/
theorem compile_error {references : List String} {persist : Bool}
    (h : (compile source references path moduleName persist).run s = (.error e, s')) :
    Undone path s s' ∧ e ≠ .extension ∨ persist = true ∧ Left path source s s' ∧
      (e = .extension ∧ loader path = .extension ∨
        e = .file .locked ∧ path ∈ s.files.locked) := by
  have hcount : Undone path s { s with compiles := s.compiles + 1 } :=
    { Undone.refl path s with }
  unfold compile at h
  rw [run_bind_of_ok (run_modify _ _)] at h
  rcases run_bind_error h with hcheck | ⟨_, s₁, hcheck, h₁⟩
  · obtain rfl := (check_keeps references path).of_run hcheck
    obtain ⟨f, rfl⟩ := check_error hcheck
    exact Or.inl ⟨hcount, nofun⟩
  · obtain rfl := (check_keeps references path).of_run hcheck
    split_ifs at h₁ with hpersist
    · rcases install_error h₁ with ⟨hundone, he⟩ | ⟨hleft, he⟩
      · exact Or.inl ⟨hcount.trans hundone, he⟩
      · exact Or.inr ⟨hpersist, hcount.left hleft, he⟩
    · obtain ⟨hrun, f, rfl⟩ := runSource_error h₁
      exact Or.inl ⟨hcount.trans (hrun ▸ grown_undone path _ source), nofun⟩

theorem load_error (h : (load path moduleName).run s = (.error e, s')) : Undone path s s' := by
  have hcount : Undone path s { s with loads := s.loads + 1 } := { Undone.refl path s with }
  unfold load at h
  rw [run_bind_of_ok (run_modify _ _), run_bind_of_ok (run_get _)] at h
  split at h
  · cases h
    exact hcount
  · split at h
    · cases h
      exact hcount
    · rcases run_bind_error h with hcheck | ⟨_, s₁, hcheck, h₁⟩
      · obtain rfl := (check_keeps _ path).of_run hcheck
        exact hcount
      · obtain rfl := (check_keeps _ path).of_run hcheck
        exact hcount.trans (execute_error h₁).1

end Compilation

end ModelContracts
