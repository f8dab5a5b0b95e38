import ModelContracts.Proofs.Build.Compiling

/-!
Builds that fail. A stale artifact may be gone, and what was loaded from it; apart from that a build
that fails leaves everything as it was, unless its source was written and could not be deleted, or
was never tried because its file is named like a binary module.
-/

namespace ModelContracts

open FileTree Building Session

namespace Builder

variable (b : Builder) (path : Path)

theorem report_undone (level : LogLevel) (p : Path) (text : String) :
    Keeps (Undone path) (report level p text) := log_undone path _

theorem lookFor_undone (p : Path) : Keeps (Undone path) (lookFor p) :=
  fun s => { Undone.refl path s with }

theorem isMatch_undone (p : Path) : Keeps (Undone path) (b.isMatch p) := fun s => Undone.refl path s

theorem deleteStale_undone : Keeps (Undone path) (deleteStale path) := by
  intro s
  unfold deleteStale
  rw [run_bind, run_get]
  dsimp only
  rcases hdelete : (Filing.delete path).run s.files with ⟨e | _, files⟩
  · have hfiles : Undone path s { s with files := files } := .of_files (Filing.delete_error hdelete)
    exact hfiles.trans (log_undone path _ _)
  · have hfiles := Filing.delete_ok hdelete
    have hgone : Undone path s { s with files := files, cache := s.cache.forget path } :=
      { home := by rw [hfiles]; rfl
        locked := by rw [hfiles]; rfl
        sources := List.prefix_refl _
        files := fun l hl => by
          rw [hfiles, file?_removeFile, if_neg hl]
        others := fun p hp => by
          rw [BuildCache.loaded?_forget, if_neg hp]
        world := rfl
        modules := rfl
        entry := Or.inr (by rw [BuildCache.loaded?_forget, if_pos rfl])
        file := Or.inr (by rw [hfiles, file?_removeFile, if_pos rfl]) }
    exact hgone.trans (log_undone path _ _)

theorem cleanup_undone : Keeps (Undone path) (b.cleanup path) := by
  unfold cleanup
  split
  · refine (lookFor_undone path path).bind fun found => ?_
    split
    · refine (b.isMatch_undone path path).bind fun fits => ?_
      split
      · exact deleteStale_undone path
      · exact .pure _
    · exact .pure _
  · exact .pure _

theorem tryLoad_cases {moduleName : String} {s s' : Session}
    {r : Except BuildError (Option Module)} (h : (tryLoad path moduleName).run s = (r, s')) :
    (∃ m, (Compilation.load path moduleName).run s = (.ok m, s') ∧ r = .ok (some m)) ∨
      Undone path s s' ∧ ∀ m, r ≠ .ok (some m) := by
  unfold tryLoad at h
  rw [run_tryCatch, run_map] at h
  rcases hload : (Compilation.load path moduleName).run s with ⟨e | m, s₁⟩
  · rw [hload] at h
    have hundone := Compilation.load_error hload
    dsimp only [Except.map] at h
    split at h
    · cases h
      exact Or.inr ⟨hundone.trans (log_undone path _ _), by simp⟩
    · cases h
      exact Or.inr ⟨hundone, by simp⟩
  · rw [hload] at h
    cases h
    exact Or.inl ⟨m, rfl, rfl⟩

/-- The module at a path was loaded from it before or is loaded now; otherwise nothing is made. -/
theorem loadArtifact_cases {moduleName : String} {s s' : Session}
    {r : Except BuildError (Option Module)}
    (h : (b.loadArtifact path moduleName).run s = (r, s')) :
    (∃ m, s.cache.loaded? path = some m ∧ m.version? = some b.version ∧ r = .ok (some m) ∧
      s' = s) ∨
    (∃ m s₁, (Compilation.load path moduleName).run s = (.ok m, s₁) ∧ r = .ok (some m) ∧
      s' = { s₁ with cache := (s₁.cache.putLoaded path m).putModule moduleName m }) ∨
    Undone path s s' ∧ ∀ m, r ≠ .ok (some m) := by
  unfold loadArtifact at h
  rw [run_bind_of_ok (run_get _)] at h
  split at h
  next m hm =>
    cases h
    obtain ⟨hloaded, hversion⟩ := Option.filter_eq_some_iff.1 hm
    exact Or.inl ⟨m, hloaded, of_decide_eq_true hversion, rfl, rfl⟩
  · rw [run_bind] at h
    rcases htry : (tryLoad path moduleName).run s with ⟨e | o, s₁⟩
    · rw [htry] at h
      cases h
      rcases tryLoad_cases path htry with ⟨m, -, hr⟩ | hundone
      · cases hr
      · exact Or.inr (Or.inr ⟨hundone.1, by simp⟩)
    · rw [htry] at h
      rcases tryLoad_cases path htry with ⟨m, hload, hr⟩ | ⟨hundone, hr⟩
      · cases hr
        cases h
        exact Or.inr (Or.inl ⟨m, s₁, hload, rfl, rfl⟩)
      · cases o with
        | some m => exact (hr m rfl).elim
        | none =>
          cases h
          exact Or.inr (Or.inr ⟨hundone, by simp⟩)

theorem fromDisk_cases {moduleName : String} {wanted : Bool} {s s' : Session}
    {r : Except BuildError (Option Module)}
    (h : (b.fromDisk path moduleName wanted).run s = (r, s')) :
    (wanted = true ∧ ∃ m, s.cache.loaded? path = some m ∧ m.version? = some b.version ∧
      r = .ok (some m) ∧ s' = s) ∨
    (∃ m s₁, (Compilation.load path moduleName).run s = (.ok m, s₁) ∧ r = .ok (some m) ∧
      s' = { s₁ with cache := (s₁.cache.putLoaded path m).putModule moduleName m }) ∨
    Undone path s s' ∧ ∀ m, r ≠ .ok (some m) := by
  unfold fromDisk at h
  split_ifs at h with hwanted
  · have hw : wanted = true := (Bool.and_eq_true_iff.1 hwanted).2
    rcases b.loadArtifact_cases path h with hloaded | hrest
    · exact Or.inl ⟨hw, hloaded⟩
    · exact Or.inr hrest
  · cases h
    exact Or.inr (Or.inr ⟨Undone.refl path s, by simp⟩)

theorem fromMemory_undone (moduleName : String) : Keeps (Undone path) (b.fromMemory moduleName) := by
  unfold fromMemory
  split
  · exact Keeps.get.bind fun _ => .pure _
  · exact .pure _

theorem fromMemory_some {moduleName : String} {m : Module} {s s' : Session}
    (h : (b.fromMemory moduleName).run s = (.ok (some m), s')) :
    s.cache.module? moduleName = some m := by
  unfold fromMemory at h
  split_ifs at h
  · exact Except.ok.inj (congrArg Prod.fst h)
  · cases h

theorem derive_undone (components : List Component) :
    Keeps (Undone path) (b.derive components path) :=
  Keeps.get.bind fun _ => synthesizing_undone path _ _

theorem derive_error {components : List Component} {s s' : Session} {e : BuildError}
    (h : (b.derive components path).run s = (.error e, s')) : e ≠ .extension := by
  unfold derive at h
  rw [run_bind_of_ok (run_get _)] at h
  exact synthesizing_error h

/-- The source of the contracts was written and stayed: its file is named like a binary module, or is
locked. -/
def LeavesSource (components : List Component) (s s' : Session) (e : BuildError) : Prop :=
  b.settings.runtimeMode = true ∧
    (∃ plan t t', (b.derive components path).run t = (.ok plan, t') ∧ t.world = s.world ∧
      Left path plan.source s s') ∧
    (e = .extension ∧ Compilation.loader path = .extension ∨
      e = .file .locked ∧ path ∈ s.files.locked)

variable {b path} in
theorem LeavesSource.after {components : List Component} {s s₁ s' : Session} {e : BuildError}
    (h : Undone path s s₁) (h' : b.LeavesSource path components s₁ s' e) :
    b.LeavesSource path components s s' e := by
  obtain ⟨hruntime, ⟨plan, t, t', hplan, ht, hleft⟩, he⟩ := h'
  rw [h.locked] at he
  exact ⟨hruntime, ⟨plan, t, t', hplan, ht.trans h.world, h.left hleft⟩, he⟩

theorem logFailure_undone (e : BuildError) : Keeps (Undone path) (logFailure path e) := by
  unfold logFailure
  split
  · exact log_undone path _
  · exact .pure _

theorem compileSource_error {plan : Blueprint} {moduleName : String} {s s' : Session}
    {e : BuildError} (h : (b.compileSource plan path moduleName).run s = (.error e, s')) :
    Undone path s s' ∧ e ≠ .extension ∨ b.settings.runtimeMode = true ∧ Left path plan.source s s' ∧
      (e = .extension ∧ Compilation.loader path = .extension ∨
        e = .file .locked ∧ path ∈ s.files.locked) := by
  unfold compileSource at h
  rw [run_tryCatch] at h
  rcases hcompile : (Compilation.compile plan.source plan.references path moduleName
      b.settings.runtimeMode).run s with ⟨e₁ | m, s₁⟩
  · rw [hcompile] at h
    rcases hlog : (logFailure path e₁).run s₁ with ⟨e₂ | _, s₂⟩
    · cases e₁ <;> cases hlog
    · have hlogged := (logFailure_undone path e₁).of_run hlog
      dsimp only at h
      rw [run_bind_of_ok hlog] at h
      cases h
      rcases Compilation.compile_error hcompile with ⟨hundone, he⟩ | ⟨hruntime, hleft, he⟩
      · exact Or.inl ⟨hundone.trans hlogged, he⟩
      · -- Neither of the two failures is one that is logged.
        have hsame : s' = s₁ := by
          rcases he with ⟨rfl, -⟩ | ⟨rfl, -⟩ <;> cases hlog <;> rfl
        rw [hsame]
        exact Or.inr ⟨hruntime, hleft, he⟩
  · rw [hcompile] at h
    cases h

/-- A module that was made is recorded for its path by the builds that keep files. -/
theorem run_record (moduleName : String) (m : Module) (s : Session) :
    ∃ cache : ModuleCache,
      (b.record path moduleName m).run s = (.ok ⟨⟩, { s with cache := cache }) ∧
        (∀ name, cache.module? name =
          if name = moduleName then some m else s.cache.module? name) ∧
        ∀ p, cache.loaded? p =
          if b.settings.runtimeMode = true ∧ p = path then some m else s.cache.loaded? p := by
  have hmodule (name : String) := BuildCache.module?_putModule s.cache moduleName name m
  unfold record
  rw [setCache, run_bind_of_ok (run_modify _ _)]
  split_ifs with hruntime
  · refine ⟨_, rfl, hmodule, fun p => ?_⟩
    simp only [hruntime, true_and]
    exact BuildCache.loaded?_putLoaded (s.cache.putModule moduleName m) path p m
  · refine ⟨_, rfl, hmodule, fun p => ?_⟩
    rw [if_neg fun h => hruntime h.1]
    rfl

theorem compile_error {components : List Component} {moduleName : String} {s s' : Session}
    {e : BuildError} (h : (b.compile components path moduleName).run s = (.error e, s')) :
    Undone path s s' ∧ e ≠ .extension ∨ b.LeavesSource path components s s' e := by
  rcases run_bind_error h with hderive | ⟨plan, s₁, hderive, h₁⟩
  · exact Or.inl ⟨(b.derive_undone path components).of_run hderive, b.derive_error path hderive⟩
  have hderived := (b.derive_undone path components).of_run hderive
  have hfolders := filing_undone path (Filing.makeFolders_keeps path.parent)
  rcases run_bind_error h₁ with hr | ⟨_, s₂, hr, h₂⟩
  · exact Or.inl ⟨hderived.trans (hfolders.of_run hr), filing_error hr⟩
  have hundone := hderived.trans (hfolders.of_run hr)
  rcases run_bind_error h₂ with hcompile | ⟨m, s₃, -, h₃⟩
  · rcases b.compileSource_error path hcompile with ⟨hrest, he⟩ | ⟨hruntime, hleft, he⟩
    · exact Or.inl ⟨hundone.trans hrest, he⟩
    · rw [hundone.locked] at he
      exact Or.inr ⟨hruntime, ⟨plan, s, s₁, hderive, rfl, hundone.left hleft⟩, he⟩
  · obtain ⟨cache, hrecord, -⟩ := b.run_record path moduleName m s₃
    rw [run_bind_of_ok hrecord] at h₃
    cases h₃

theorem survey_undone : Keeps (Undone path) (b.survey path) := by
  refine (b.cleanup_undone path).bind fun _ => (lookFor_undone path path).bind fun found => ?_
  refine (b.isMatch_undone path path).bind fun fits => ?_
  exact (report_undone path _ _ _).bind fun _ => .pure _

theorem survey_wanted {s s' : Session} (h : (b.survey path).run s = (.ok true, s')) :
    ∃ data, s'.files.file? (s'.files.resolve path) = some data := by
  obtain ⟨_, s₁, -, h₁⟩ := run_bind_ok h
  have hwanted : ((b.settings.loadFromCache ||
      (b.settings.runtimeMode && s₁.files.isFile path)) &&
        (s₁.files.isFile path && Stamp.isMatch s₁.files path b.version)) = true :=
    Except.ok.inj (congrArg Prod.fst h₁)
  have hfiles : s₁.files = s'.files := congrArg (fun out => out.2.files) h₁
  rw [← hfiles]
  exact file?_of_isFile (Bool.and_eq_true_iff.1 (Bool.and_eq_true_iff.1 hwanted).2).1

/-- A module that need not be made is one that was loaded from the artifact on disk, then or now, or
one in memory. Without one, things were deleted at most. -/
theorem reuse_cases {moduleName : String} {s s' : Session} {r : Except BuildError (Option Module)}
    (h : (b.reuse path moduleName).run s = (r, s')) :
    (∃ m s₁, r = .ok (some m) ∧ Undone path s s₁ ∧ s₁.cache.loaded? path = some m ∧
      m.version? = some b.version ∧
        (∃ data, s₁.files.file? (s₁.files.resolve path) = some data) ∧
          ∃ log, s' = { s₁ with log := log }) ∨
    (∃ m s₁ s₂, r = .ok (some m) ∧ Undone path s s₁ ∧
      (Compilation.load path moduleName).run s₁ = (.ok m, s₂) ∧
      ∃ log, s' =
        { s₂ with cache := (s₂.cache.putLoaded path m).putModule moduleName m, log := log }) ∨
    (∃ m, r = .ok (some m) ∧ Undone path s s' ∧ s.cache.module? moduleName = some m ∧
      s'.log.getLast? = some (reused path "memory")) ∨
    Undone path s s' ∧ ∀ m, r ≠ .ok (some m) := by
  unfold reuse at h
  rw [run_bind] at h
  rcases hsurvey : (b.survey path).run s with ⟨e | wanted, s₁⟩
  · rw [hsurvey] at h
    cases h
    exact Or.inr (Or.inr (Or.inr ⟨(b.survey_undone path).of_run hsurvey, by simp⟩))
  have hundone := (b.survey_undone path).of_run hsurvey
  rw [hsurvey] at h
  dsimp only at h
  rw [run_bind] at h
  rcases hdisk : (b.fromDisk path moduleName wanted).run s₁ with ⟨e | o, s₂⟩
  · rw [hdisk] at h
    cases h
    rcases b.fromDisk_cases path hdisk with ⟨-, m, -, -, hr, -⟩ | ⟨m, -, -, hr, -⟩ | ⟨hrest, -⟩
    · cases hr
    · cases hr
    · exact Or.inr (Or.inr (Or.inr ⟨hundone.trans hrest, by simp⟩))
  rw [hdisk] at h
  rcases b.fromDisk_cases path hdisk with ⟨hw, m, hentry, hversion, hr, rfl⟩ |
    ⟨m, s₃, hload, hr, rfl⟩ | ⟨hrest, hnone⟩
  · cases hr
    cases h
    subst hw
    exact Or.inl ⟨m, s₂, rfl, hundone, hentry, hversion, b.survey_wanted path hsurvey, _, rfl⟩
  · cases hr
    cases h
    exact Or.inr (Or.inl ⟨m, s₁, s₃, rfl, hundone, hload, _, rfl⟩)
  · cases o with
    | some m => exact (hnone m rfl).elim
    | none =>
      dsimp only at h
      rw [run_bind] at h
      rcases hmemory : (b.fromMemory moduleName).run s₂ with ⟨e | o, s₃⟩
      · rw [hmemory] at h
        cases h
        have hkept := hrest.trans ((b.fromMemory_undone path moduleName).of_run hmemory)
        exact Or.inr (Or.inr (Or.inr ⟨hundone.trans hkept, by simp⟩))
      · rw [hmemory] at h
        have hkept := hrest.trans ((b.fromMemory_undone path moduleName).of_run hmemory)
        cases o with
        | none =>
          cases h
          exact Or.inr (Or.inr (Or.inr ⟨hundone.trans hkept, by simp⟩))
        | some m =>
          cases h
          have hmodule := b.fromMemory_some hmemory
          rw [BuildCache.module?, (hundone.trans hrest).modules] at hmodule
          refine Or.inr (Or.inr (Or.inl ⟨m, rfl, (hundone.trans hkept).trans ?_, hmodule, ?_⟩))
          · exact log_undone path _ _
          · exact List.getLast?_concat

theorem reuse_undone {moduleName : String} {s s' : Session}
    {r : Except BuildError (Option Module)} (h : (b.reuse path moduleName).run s = (r, s'))
    (hnone : ∀ m, r ≠ .ok (some m)) : Undone path s s' := by
  rcases b.reuse_cases path h with ⟨m, -, hr, -⟩ | ⟨m, -, -, hr, -⟩ | ⟨m, hr, -⟩ | ⟨hundone, -⟩
  · exact (hnone m hr).elim
  · exact (hnone m hr).elim
  · exact (hnone m hr).elim
  · exact hundone

/-- A build ends with its search for a module to reuse, or it makes one. -/
theorem run_cases {components : List Component} {s s' : Session}
    {r : Except BuildError (BuildResult Module)} (h : (b.run components path).run s = (r, s')) :
    (∃ e, (b.reuse path (Artifact.moduleName path)).run s = (.error e, s') ∧ r = .error e) ∨
    (∃ m, (b.reuse path (Artifact.moduleName path)).run s = (.ok (some m), s') ∧
      r = .ok (.fromCache m path)) ∨
    ∃ t, (b.reuse path (Artifact.moduleName path)).run s = (.ok none, t) ∧
      (b.compile components path (Artifact.moduleName path)).run t = (r, s') := by
  unfold run at h
  rw [run_bind] at h
  rcases hreuse : (b.reuse path (Artifact.moduleName path)).run s with ⟨e | o, t⟩ <;>
    rw [hreuse] at h
  · cases h
    exact Or.inl ⟨e, rfl, rfl⟩
  · cases o with
    | some m =>
      cases h
      exact Or.inr (Or.inl ⟨m, rfl, rfl⟩)
    | none => exact Or.inr (Or.inr ⟨t, rfl, h⟩)

/-- A build fails while it looks for a module to reuse, or while it makes one. -/
theorem run_error {components : List Component} {s s' : Session} {e : BuildError}
    (h : (b.run components path).run s = (.error e, s')) :
    (b.reuse path (Artifact.moduleName path)).run s = (.error e, s') ∧ Undone path s s' ∨
      (∃ t, (b.reuse path (Artifact.moduleName path)).run s = (.ok none, t)) ∧
        (Undone path s s' ∧ e ≠ .extension ∨ b.LeavesSource path components s s' e) := by
  rcases b.run_cases path h with ⟨e', hreuse, he⟩ | ⟨m, -, hr⟩ | ⟨t, hreuse, hcompile⟩
  · cases he
    exact Or.inl ⟨hreuse, b.reuse_undone path hreuse (by simp)⟩
  · cases hr
  · have hundone := b.reuse_undone path hreuse (by simp)
    refine Or.inr ⟨⟨t, hreuse⟩, ?_⟩
    rcases b.compile_error path hcompile with ⟨hrest, he⟩ | hleaves
    · exact Or.inl ⟨hundone.trans hrest, he⟩
    · exact Or.inr (hleaves.after hundone)

/-- There is nothing to reuse, and the module is made for a file that is named like a binary module,
for which that fails. -/
def Strands (s : Session) (e : BuildError) : Prop :=
  b.settings.runtimeMode = true ∧ Compilation.loader path = .extension ∧ e = .extension ∧
    ∃ t, (b.reuse path (Artifact.moduleName path)).run (takeOff path s) = (.ok none, t)

theorem takeOff_undone (s : Session) : Undone path s (takeOff path s) :=
  { Undone.refl path s with }

theorem land_undone (key : Location) (s : Session) : Undone path s (land key s) :=
  { Undone.refl path s with }

theorem build_eq (components : List Component) (s : Session) :
    (b.build components path).run s =
      (((b.run components path).run (takeOff path s)).1,
        land (s.files.resolve path) ((b.run components path).run (takeOff path s)).2) := rfl

/-- A build runs between taking off and landing. -/
theorem run_of_build {components : List Component} {s s' : Session}
    {r : Except BuildError (BuildResult Module)} (h : (b.build components path).run s = (r, s')) :
    ∃ t, (b.run components path).run (takeOff path s) = (r, t) ∧
      s' = land (s.files.resolve path) t := by
  rw [build_eq] at h
  cases h
  exact ⟨_, rfl, rfl⟩

/-- A build that succeeds answers with a module that it reuses, or with one that it makes. -/
theorem build_ok {components : List Component} {s s' : Session} {result : BuildResult Module}
    (h : (b.build components path).run s = (.ok result, s')) :
    ∃ t, s' = land (s.files.resolve path) t ∧
      ((∃ m, (b.reuse path (Artifact.moduleName path)).run (takeOff path s) = (.ok (some m), t) ∧
        result = .fromCache m path) ∨
      ∃ u, (b.reuse path (Artifact.moduleName path)).run (takeOff path s) = (.ok none, u) ∧
        (b.compile components path (Artifact.moduleName path)).run u = (.ok result, t)) := by
  obtain ⟨t, hrun, hland⟩ := b.run_of_build path h
  refine ⟨t, hland, ?_⟩
  rcases b.run_cases path hrun with ⟨e, -, hr⟩ | ⟨m, hreuse, hr⟩ | hmade
  · cases hr
  · cases hr
    exact Or.inl ⟨m, hreuse, rfl⟩
  · exact Or.inr hmade

/-- A build that fails leaves nothing behind, except in the one case, where its source stays. -/
theorem failed_build_undone {components : List Component} {s s' : Session} {e : BuildError}
    (hlocked : s.files.locked = []) (h : (b.build components path).run s = (.error e, s')) :
    (¬ b.Strands path s e → Undone path s s') ∧
      (b.Strands path s e → ∃ plan t t', (b.derive components path).run t = (.ok plan, t') ∧
        t.world = s.world ∧ Left path plan.source s s') := by
  rcases hrun : (b.run components path).run (takeOff path s) with ⟨r, t⟩
  rw [build_eq, hrun] at h
  cases h
  have hstart := takeOff_undone path s
  have hend := land_undone path (s.files.resolve path) t
  rcases b.run_error path hrun with ⟨hreuse, hundone⟩ | ⟨⟨u, hreuse⟩, ⟨hundone, he⟩ | hleaves⟩
  · refine ⟨fun _ => (hstart.trans hundone).trans hend, fun hstrands => ?_⟩
    obtain ⟨-, -, -, u, hu⟩ := hstrands
    rw [hreuse] at hu
    cases hu
  · exact ⟨fun _ => (hstart.trans hundone).trans hend, fun hstrands => (he hstrands.2.2.1).elim⟩
  · obtain ⟨hruntime, ⟨plan, v, v', hplan, hworld, hleft⟩, he⟩ := hleaves.after hstart
    refine ⟨fun hstrands => ?_, fun _ => ⟨plan, v, v', hplan, hworld, { hleft with }⟩⟩
    rcases he with ⟨he, hloader⟩ | ⟨-, hmem⟩
    · exact (hstrands ⟨hruntime, hloader, he, u, hreuse⟩).elim
    · rw [hlocked] at hmem
      cases hmem

end Builder

/-! A world without classes, in which no source can be executed. -/

namespace Barren

def session : Session :=
  { world := { classes := [], modules := [], importable := ["typing", "modelgen.contracts"] } }

def builder : Builder := { settings := { runtimeMode := true } }

theorem source_undone : ∃ e s',
    (builder.build [] (Path.ofText "App.py")).run session = (.error e, s') ∧
      Undone (Path.ofText "App.py") session s' := by
  obtain ⟨e, s', h⟩ : ∃ e s', (builder.build [] (Path.ofText "App.py")).run session = (.error e, s') :=
    run_of_isError (by decide +kernel)
  refine ⟨e, s', h, (builder.failed_build_undone _ rfl h).1 fun hstrands => ?_⟩
  exact absurd hstrands.2.1 (by decide)

/-- The source of a failed build stays where it was written. -/
theorem extension_not_undone : ∃ e s', session.files.locked = [] ∧
    (builder.build [] (Path.ofText "App.so")).run session = (.error e, s') ∧
      ¬ Undone (Path.ofText "App.so") session s' := by
  have hfacts : ((builder.build [] (Path.ofText "App.so")).run session).1.isOk = false ∧
      (((builder.build [] (Path.ofText "App.so")).run session).2.files.file?
        (session.files.resolve (Path.ofText "App.so"))).isSome = true := by decide +kernel
  obtain ⟨hfailed, hstays⟩ := hfacts
  obtain ⟨e, s', h⟩ := run_of_isError hfailed
  rw [h] at hstays
  refine ⟨e, s', rfl, h, fun hundone => ?_⟩
  have hbefore : session.files.file? (session.files.resolve (Path.ofText "App.so")) = none := rfl
  rcases hundone.file with hfile | hfile
  · rw [hfile, hbefore] at hstays
    cases hstays
  · rw [hfile] at hstays
    cases hstays

end Barren

end ModelContracts
