import ModelContracts.Proofs.Build.Cleaning
import ModelContracts.Proofs.Build.Planning

/-!
What a compilation that fails leaves of the artifact before it. Faults that are found before the new source
is written leave the artifact as it was, and so does a build that keeps no files. A source that fails when it
is executed from the file has taken the place of the artifact, and goes with it.
-/

namespace ModelContracts

open FileTree Building Session

/-! What a failure tells. -/

/-- Unless the error is another, it tells the source that failed and the path of it. -/
def BuildError.Tells (source : String) (path : Path) (e : BuildError) : Prop :=
  ∀ f, e = .compile f → f.source = source ∧ f.path = path

theorem filing_tells {α : Type} (m : Filing α) (source : String) (path : Path) :
    FailsWith (BuildError.Tells source path) (filing m) := by
  intro s e s' h f hf
  obtain ⟨e', rfl⟩ := mapError_error (congrArg Prod.fst h)
  cases hf

namespace Compilation

variable {source name : String} {path : Path} {s s' : Session} {f : CompileFailure}
  {references : List String} {persist : Bool}

theorem compile_failed {diagnostics : List String} :
    BuildError.Tells source path (.compile ⟨diagnostics, source, path⟩) := by
  rintro f ⟨⟩
  exact ⟨rfl, rfl⟩

theorem checkLoader_tells : FailsWith (BuildError.Tells source path) (checkLoader source path) := by
  unfold checkLoader
  split
  · exact .pure _
  · exact .throw nofun
  · exact .throw compile_failed

theorem runSource_tells (origin : String) :
    FailsWith (BuildError.Tells source path) (runSource source path name origin) := by
  refine FailsWith.get.bind fun s => ?_
  split
  · exact (FailsWith.modify _).bind fun _ => .throw compile_failed
  · exact (FailsWith.modify _).bind fun _ => (FailsWith.modify _).bind fun _ => .pure _

theorem execute_tells (fromFile : Bool) :
    FailsWith (BuildError.Tells source path) (execute source path name fromFile) := by
  unfold execute
  split
  · exact checkLoader_tells.bind fun _ => runSource_tells _
  · exact runSource_tells _

theorem deleteIfThere_tells : FailsWith (BuildError.Tells source path) (deleteIfThere path) := by
  refine (filing_tells (Filing.delete path) source path).tryCatch fun e he => ?_
  split
  · exact .pure _
  · exact .throw he

theorem executeOrDelete_tells :
    FailsWith (BuildError.Tells source path) (executeOrDelete source path name) := by
  refine (execute_tells true).tryCatch fun e he => ?_
  split
  · exact deleteIfThere_tells.bind fun _ => .throw he
  · exact FailsWith.throw he

theorem check_tells : FailsWith (BuildError.Tells source path) (check source references path) := by
  refine FailsWith.get.bind fun s => ?_
  dsimp only
  split
  · exact .pure _
  · exact .throw compile_failed

theorem compile_tells :
    FailsWith (BuildError.Tells source path) (compile source references path name persist) := by
  refine (FailsWith.modify _).bind fun _ => check_tells.bind fun _ => ?_
  split
  · exact (filing_tells _ source path).bind fun _ => (filing_tells _ source path).bind fun _ =>
      (FailsWith.modify _).bind fun _ => executeOrDelete_tells
  · exact execute_tells false

/-! The stages of a compilation. -/

/-- What is wrong with a source before it is executed: modules that are not there, and its syntax. -/
def faults (w : World) (source : String) (references : List String) (path : Path) : List String :=
  unresolvedReferences w references path ++ syntaxDiagnostics source path

theorem check_faultless (h : faults s.world source references path = []) :
    (check source references path).run s = (.ok ⟨⟩, s) := by
  have hempty : (unresolvedReferences s.world references path ++
      syntaxDiagnostics source path).isEmpty = true := List.isEmpty_iff.2 h
  rw [check_run, if_pos hempty]

theorem check_faulty (h : faults s.world source references path ≠ []) :
    (check source references path).run s =
      (.error (.compile ⟨faults s.world source references path, source, path⟩), s) := by
  have hsome : ¬ (unresolvedReferences s.world references path ++
      syntaxDiagnostics source path).isEmpty = true := fun hempty => h (List.isEmpty_iff.1 hempty)
  rw [check_run, if_neg hsome]
  rfl

/-- A source that is written and fails is gone again. -/
theorem install_failure (h : (install source path name).run s = (.error (.compile f), s')) :
    s'.files.file? (s.files.resolve path) = none := by
  have hfolders := filing_undone path (Filing.makeFolders_keeps path.parent)
  rcases run_bind_error h with hr | ⟨_, s₁, hr, h₁⟩
  · obtain ⟨_, he⟩ := mapError_error (congrArg Prod.fst hr)
    cases he
  have hundone := hfolders.of_run hr
  rcases hwrite : (Filing.write path (Text.encodeUtf8 source)).run s₁.files with ⟨e | _, tree⟩
  · rw [run_bind, run_filing, hwrite] at h₁
    cases h₁
  · rw [run_bind, run_filing, hwrite] at h₁
    dsimp only [Except.mapError] at h₁
    rw [run_bind_of_ok (run_log _ _)] at h₁
    have hhome : tree.home = s₁.files.home := by rw [Filing.write_ok hwrite]; rfl
    have hplace : tree.resolve path = s.files.resolve path :=
      (resolve_of_home hhome path).trans (hundone.resolve path)
    rcases (executeOrDelete_error hwrite h₁).2 with ⟨-, hgone⟩ | ⟨-, ⟨he, -⟩ | ⟨he, -⟩⟩
    · rw [← hplace]
      exact hgone
    · cases he
    · cases he

/-- A compilation fails over the faults that it finds first, or else over the execution of the source. -/
theorem compile_failure
    (h : (compile source references path name persist).run s = (.error (.compile f), s')) :
    (faults s.world source references path ≠ [] ∧
      f.diagnostics = faults s.world source references path ∧ Unfiled s s') ∨
    faults s.world source references path = [] ∧
      (persist = false ∧ Unfiled s s' ∨
        persist = true ∧ s'.files.file? (s.files.resolve path) = none) := by
  let counted : Session := { s with compiles := s.compiles + 1 }
  unfold compile at h
  rw [run_bind_of_ok (run_modify s _)] at h
  by_cases hfaults : faults s.world source references path = []
  · refine Or.inr ⟨hfaults, ?_⟩
    rw [run_bind_of_ok (check_faultless (s := counted) hfaults)] at h
    split_ifs at h with hpersist
    · exact Or.inr ⟨hpersist, install_failure (s := counted) h⟩
    · have hrest := (execute_calm source false).of_run h
      exact Or.inl ⟨by simpa using hpersist, unfiled_of_files hrest.files⟩
  · rw [run_bind_of_error (check_faulty (s := counted) hfaults)] at h
    obtain ⟨he, hs⟩ := Prod.mk.inj h
    cases he
    rw [← hs]
    exact Or.inl ⟨hfaults, rfl, refl_of SameFiles s.files⟩

end Compilation

namespace Builder

variable (b : Builder) {path : Path} {name : String} {s s' : Session} {f : CompileFailure}
  {components : List Component} {data : List UInt8}

theorem compileSource_failure {plan : Blueprint} {e : BuildError}
    (h : (b.compileSource plan path name).run s = (.error e, s')) :
    ∃ t, (Compilation.compile plan.source plan.references path name b.settings.runtimeMode).run s =
      (.error e, t) ∧ s'.files = t.files := by
  unfold compileSource at h
  rw [run_tryCatch] at h
  rcases hcompile : (Compilation.compile plan.source plan.references path name
      b.settings.runtimeMode).run s with ⟨e' | m, t⟩
  · rw [hcompile] at h
    refine ⟨t, ?_⟩
    cases e' <;> cases h <;> exact ⟨rfl, rfl⟩
  · rw [hcompile] at h
    cases h

theorem survey_unfiled (hclean : b.settings.cleanupEnabled = false) : Keeps Unfiled (b.survey path) := by
  have hcleanup : b.cleanup path = pure ⟨⟩ := by simp [cleanup, hclean]
  unfold survey
  rw [hcleanup]
  exact (Keeps.pure _).bind fun _ => Keeps.bind (fun s => refl_of SameFiles s.files) fun _ =>
    Keeps.bind (fun s => refl_of SameFiles s.files) fun _ =>
      (quiet_unfiled (log_quiet _)).bind fun _ => .pure _

/-- A build that does not clean up changes no file while it looks for something to reuse. -/
theorem reuse_unfiled (hclean : b.settings.cleanupEnabled = false) : Keeps Unfiled (b.reuse path name) := by
  refine (b.survey_unfiled hclean).bind fun wanted => (b.fromDisk_unfiled wanted).bind fun o => ?_
  split
  · exact (quiet_unfiled (log_quiet _)).bind fun _ => .pure _
  · refine (quiet_unfiled (calm_quiet b.fromMemory_calm)).bind fun o => ?_
    split
    · exact (quiet_unfiled (log_quiet _)).bind fun _ => .pure _
    · exact .pure _

/-- An artifact that does not compile is no failure of the build. -/
theorem tryLoad_recovers : FailsWith (fun e => ∀ f, e ≠ .compile f) (tryLoad path name) := by
  have hload : FailsWith (fun _ => True) (some <$> Compilation.load path name) := fun _ _ _ _ => trivial
  refine hload.tryCatch fun e _ => ?_
  split
  · exact (FailsWith.modify _).bind fun _ => .pure _
  next hother => exact .throw hother

theorem fromDisk_recovers (wanted : Bool) :
    FailsWith (fun e => ∀ f, e ≠ .compile f) (b.fromDisk path name wanted) := by
  unfold fromDisk
  split
  · refine FailsWith.get.bind fun s => ?_
    split
    · exact .pure _
    · refine tryLoad_recovers.bind fun o => ?_
      split
      · exact .pure _
      · exact (FailsWith.modify _).bind fun _ => .pure _
  · exact .pure _

theorem reuse_recovers : FailsWith (fun e => ∀ f, e ≠ .compile f) (b.reuse path name) := by
  have hsurvey : FailsWith (fun e => ∀ f, e ≠ .compile f) (b.survey path) := by
    refine .of_ok fun s => ?_
    obtain ⟨wanted, t, hrun, -⟩ := b.survey_succeeds path s
    exact ⟨wanted, t, hrun⟩
  have hmemory : FailsWith (fun e => ∀ f, e ≠ .compile f) (b.fromMemory name) := by
    refine .of_ok fun s => ?_
    obtain ⟨o, hrun⟩ := fromMemory_run (b := b) name s
    exact ⟨o, s, hrun⟩
  refine hsurvey.bind fun wanted => (b.fromDisk_recovers wanted).bind fun o => ?_
  split
  · exact (FailsWith.modify _).bind fun _ => .pure _
  · refine hmemory.bind fun o => ?_
    split
    · exact (FailsWith.modify _).bind fun _ => .pure _
    · exact .pure _

theorem compile_failure
    (h : (b.compile components path name).run s = (.error (.compile f), s')) :
    ∃ plan, ((b.derive components path).run s).1 = .ok plan ∧ f.source = plan.source ∧
      ((Compilation.faults s.world plan.source plan.references path ≠ [] ∧
        f.diagnostics = Compilation.faults s.world plan.source plan.references path ∧ Unfiled s s') ∨
      Compilation.faults s.world plan.source plan.references path = [] ∧
        (b.settings.runtimeMode = false ∧ Unfiled s s' ∨
          b.settings.runtimeMode = true ∧ s'.files.file? (s.files.resolve path) = none)) := by
  rcases run_bind_error h with hderive | ⟨plan, s₁, hderive, h₁⟩
  · unfold derive at hderive
    rw [run_bind_of_ok (run_get s)] at hderive
    obtain ⟨_, he⟩ := mapError_error (congrArg Prod.fst hderive)
    cases he
  have hderived := (b.derive_undone path components).of_run hderive
  have hfiles₁ := unfiled_of_files ((b.derive_calm components).of_run hderive).files
  rcases run_bind_error h₁ with hr | ⟨_, s₂, hr, h₂⟩
  · obtain ⟨_, he⟩ := mapError_error (congrArg Prod.fst hr)
    cases he
  have hundone := hderived.trans ((filing_undone path (Filing.makeFolders_keeps path.parent)).of_run hr)
  have hfiles : Unfiled s s₂ :=
    trans_of Unfiled hfiles₁ ((filing_quiet (Filing.makeFolders_keeps path.parent)).of_run hr).files
  rcases run_bind_error h₂ with hsource | ⟨m, s₃, -, h₃⟩
  · obtain ⟨t, hcompile, hsame⟩ := b.compileSource_failure hsource
    refine ⟨plan, by rw [hderive], (Compilation.compile_tells hcompile f rfl).1, ?_⟩
    have hunfiled {u : Session} (hu : Unfiled s₂ u) (hfiles' : s'.files = u.files) : Unfiled s s' := by
      have hrest := trans_of Unfiled hfiles hu
      rwa [Unfiled, ← hfiles'] at hrest
    have hstages := Compilation.compile_failure hcompile
    rw [hundone.world, hundone.resolve] at hstages
    rcases hstages with ⟨hfaults, hdiagnostics, ht⟩ | ⟨hnone, ⟨hpersist, ht⟩ | ⟨hpersist, hgone⟩⟩
    · exact Or.inl ⟨hfaults, hdiagnostics, hunfiled ht hsame⟩
    · exact Or.inr ⟨hnone, Or.inl ⟨hpersist, hunfiled ht hsame⟩⟩
    · exact Or.inr ⟨hnone, Or.inr ⟨hpersist, by rw [hsame, hgone]⟩⟩
  · obtain ⟨cache, hrecord, -⟩ := b.run_record path name m s₃
    rw [run_bind_of_ok hrecord] at h₃
    cases h₃

variable {b}

/-- A build that does not clean up and fails over its source leaves the artifact as it was when it finds
the faults before it executes the source, or keeps no files. If the source fails from its file, there is no
artifact any more. -/
theorem failed_build_artifact (hclean : b.settings.cleanupEnabled = false)
    (hread : s.files.read? path = .ok data)
    (h : (b.build components path).run s = (.error (.compile f), s')) :
    ∃ plan, ((b.derive components path).run s).1 = .ok plan ∧ f.source = plan.source ∧
      ((Compilation.faults s.world plan.source plan.references path ≠ [] ∧
        f.diagnostics = Compilation.faults s.world plan.source plan.references path ∧
          s'.files.file? (s.files.resolve path) = some data) ∨
      Compilation.faults s.world plan.source plan.references path = [] ∧
        (b.settings.runtimeMode = false ∧ s'.files.file? (s.files.resolve path) = some data ∨
          b.settings.runtimeMode = true ∧ s'.files.file? (s.files.resolve path) = none)) := by
  rcases hrun : (b.run components path).run (takeOff path s) with ⟨r, t⟩
  rw [build_eq, hrun] at h
  cases h
  rcases run_bind_error hrun with hreuse | ⟨o, s₁, hreuse, hrest⟩
  · exact (b.reuse_recovers hreuse f rfl).elim
  cases o with
  | some m => cases hrest
  | none =>
    have hsteady := reuse_none hreuse
    have hfiles : Unfiled (takeOff path s) s₁ := (b.reuse_unfiled hclean).of_run hreuse
    have hstart : Alike s s₁ := { hsteady with }
    have hplace : s₁.files.resolve path = s.files.resolve path := resolve_of_home hstart.home path
    have hdata : s₁.files.file? (s.files.resolve path) = some data :=
      (hfiles.file _).trans (file?_of_read? hread)
    obtain ⟨plan, hderive, hsource, hstages⟩ := b.compile_failure hrest
    rw [derive_alike b hstart] at hderive
    rw [hstart.world, hplace] at hstages
    refine ⟨plan, hderive, hsource, ?_⟩
    rcases hstages with ⟨hfaults, hdiagnostics, ht⟩ | ⟨hnone, ⟨hruntime, ht⟩ | ⟨hruntime, hgone⟩⟩
    · exact Or.inl ⟨hfaults, hdiagnostics, (ht.file _).trans hdata⟩
    · exact Or.inr ⟨hnone, Or.inl ⟨hruntime, (ht.file _).trans hdata⟩⟩
    · exact Or.inr ⟨hnone, Or.inr ⟨hruntime, hgone⟩⟩

end Builder

/-! An artifact in a world without classes. -/

namespace Barren

def standing : Session := { session with files := { files := [(["App.py"], Text.encodeUtf8 source)] } }

def sketcher : Builder := { settings := { runtimeMode := false } }

def failure? {α : Type} : Except BuildError α → Option CompileFailure
  | .error (.compile f) => some f
  | _ => none

theorem run_of_failure {α : Type} {m : Building α} {s : Session}
    (h : (failure? (m.run s).1).isSome = true) : ∃ f s', m.run s = (.error (.compile f), s') := by
  rcases hr : m.run s with ⟨(_ | f | _ | _ | _) | _, s'⟩ <;> rw [hr] at h
  case error.compile => exact ⟨f, s', rfl⟩
  all_goals cases h

/-- The same artifact where no module can be imported. -/
def unfounded : Session := { standing with world := { classes := [], modules := [] } }

/-- A build that keeps no files fails, and the artifact is there as before. -/
theorem unfounded_kept : ∃ f s', (sketcher.build [] place).run unfounded = (.error (.compile f), s') ∧
    s'.files.file? (unfounded.files.resolve place) = some (Text.encodeUtf8 source) := by
  obtain ⟨f, s', h⟩ := run_of_failure (m := sketcher.build [] place) (s := unfounded) (by decide +kernel)
  have hread : unfounded.files.read? place = .ok (Text.encodeUtf8 source) := rfl
  obtain ⟨plan, -, -, hstages⟩ := Builder.failed_build_artifact (b := sketcher) rfl hread h
  rcases hstages with ⟨-, -, hkept⟩ | ⟨-, ⟨-, hkept⟩ | ⟨hruntime, -⟩⟩
  · exact ⟨f, s', h, hkept⟩
  · exact ⟨f, s', h, hkept⟩
  · cases hruntime

/-- A build that keeps files and fails over the execution of its source deletes the artifact. -/
theorem standing_lost : builder.settings.cleanupEnabled = false ∧ standing.files.locked = [] ∧
    ∃ data f s', standing.files.read? place = .ok data ∧
      (builder.build [] place).run standing = (.error (.compile f), s') ∧
        s'.files.file? (standing.files.resolve place) ≠ some data := by
  have hfacts : (failure? ((builder.build [] place).run standing).1).isSome = true ∧
      (((builder.build [] place).run standing).2.files.file? (standing.files.resolve place)).isNone =
        true := by decide +kernel
  obtain ⟨hfailed, hgone⟩ := hfacts
  obtain ⟨f, s', h⟩ := run_of_failure hfailed
  rw [h, Option.isNone_iff_eq_none] at hgone
  refine ⟨rfl, rfl, Text.encodeUtf8 source, f, s', rfl, h, ?_⟩
  rw [hgone]
  exact nofun

end Barren

end ModelContracts
