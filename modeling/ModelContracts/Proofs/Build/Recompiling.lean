import ModelContracts.Proofs.Build.Rebuilding
import ModelContracts.Proofs.Execution.Stumbling
import ModelContracts.Proofs.Synthesis.Indistinct

/-!
An artifact that is in the way. What stands in the file of a path can be anything; unless it becomes
the answer, the build makes the contracts as if there were no file, and ends in the same way. A file
that shows the version in its first characters and is no text further on is the exception: the build
fails over it.
-/

namespace ModelContracts

open FileTree Building Session

namespace Session

/-- What a compilation goes by is the same. -/
structure Alike (s t : Session) : Prop where
  world : t.world = s.world
  converters : t.converters = s.converters
  formed : t.formed = s.formed
  home : t.files.home = s.files.home
  folders : t.files.folders = s.files.folders
  locked : t.files.locked = s.files.locked

/-- What a compilation goes by stays the same; other sources may have been executed, and files may be
gone. -/
structure Steady (s t : Session) : Prop extends Alike s t where
  sources : s.sources <+: t.sources

instance : IsPreorder Session Steady where
  refl _ := ⟨⟨rfl, rfl, rfl, rfl, rfl, rfl⟩, List.prefix_refl _⟩
  trans _ _ _ h h' :=
    ⟨⟨h'.world.trans h.world, h'.converters.trans h.converters, h'.formed.trans h.formed,
      h'.home.trans h.home, h'.folders.trans h.folders, h'.locked.trans h.locked⟩,
      h.sources.trans h'.sources⟩

/-- Two builds end alike: with the same error, or with the same answer, but for the number of the
module. -/
inductive SameEnd : Except BuildError (BuildResult Module) × Session →
    Except BuildError (BuildResult Module) × Session → Prop
  | failed (e : BuildError) (s t : Session) : SameEnd (.error e, s) (.error e, t)
  | compiled {result other : BuildResult Module} {s t : Session} (hstate : result.state = .compiled)
      (hsame : other = { result with module := other.module })
      (hrepeats : Repeats s t result.module other.module) : SameEnd (.ok result, s) (.ok other, t)

variable {s t : Session}

theorem Alike.locate (h : Alike s t) {p : Path} {l : Location} (hl : s.files.locate p = .ok l) :
    t.files.locate p = .ok l := locate_of_folders h.home h.folders hl

theorem Alike.isFolderAt (h : Alike s t) (l : Location) :
    t.files.isFolderAt l = s.files.isFolderAt l := by
  rw [FileTree.isFolderAt, h.home, h.folders, FileTree.isFolderAt]

theorem Alike.nested (h : Alike s t) (hs : s.files.Nested) : t.files.Nested := by
  intro l hl
  rw [h.isFolderAt]
  exact hs l (h.folders ▸ hl)

theorem log_steady (r : LogRecord) : Keeps Steady (Building.log r) := fun s =>
  { refl_of Steady s with }

end Session

namespace Compilation

variable {path : Path} {s s' : Session} {e : BuildError} {m : Module} {source name : String}
  {references : List String} {data : List UInt8} {l : Location}

/-- What loading a file can fail with: it is no text, or it is named like a binary module, or its source
does not become a module. -/
theorem load_stumbles (hread : s.files.read? path = .ok data)
    (h : (load path name).run s = (.error e, s')) :
    Steady s s' ∧ ((∃ f, e = .compile f) ∨ e = .undecodable ∧ fileText data = none ∨
      e = .extension ∧ loader path = .extension) := by
  have hcount : Steady s { s with loads := s.loads + 1 } := { refl_of Steady s with }
  unfold load at h
  rw [run_bind_of_ok (run_modify _ _), run_bind_of_ok (run_get _)] at h
  dsimp only at h
  rw [hread] at h
  dsimp only at h
  rcases htext : fileText data with _ | source
  · rw [htext] at h
    cases h
    exact ⟨hcount, Or.inr (Or.inl ⟨rfl, rfl⟩)⟩
  · rw [htext] at h
    dsimp only at h
    rcases run_bind_error h with hcheck | ⟨_, s₁, hcheck, h₁⟩
    · obtain rfl := (check_keeps _ path).of_run hcheck
      exact ⟨hcount, Or.inl (check_error hcheck)⟩
    · obtain rfl := (check_keeps _ path).of_run hcheck
      rw [execute, if_pos rfl] at h₁
      rcases run_bind_error h₁ with hloader | ⟨_, s₂, hloader, h₂⟩
      · obtain ⟨rfl, hfailed | hextension⟩ := checkLoader_error hloader
        · exact ⟨hcount, Or.inl hfailed⟩
        · exact ⟨hcount, Or.inr (Or.inr hextension)⟩
      · obtain ⟨rfl, -⟩ := checkLoader_ok hloader
        obtain ⟨rfl, hfailed⟩ := runSource_error h₂
        exact ⟨{ hcount with sources := List.prefix_append _ _ }, Or.inl hfailed⟩

/-- What compiling a source to a file comes to. -/
def ending (w : World) (locked : Bool) (number : Nat) (source : String) (references : List String)
    (path : Path) (name : String) : Except BuildError Module :=
  let diagnostics := unresolvedReferences w references path ++ syntaxDiagnostics source path
  let failed (d : String) : BuildError :=
    if locked then .file .locked else .compile ⟨[d], source, path⟩
  if diagnostics.isEmpty then
    match loader path with
    | .extension => .error .extension
    | .missing => .error (failed (diagnostic path 1 1 "Cannot create module spec"))
    | .source => match outcome w number source name with
      | .error f => .error (failed (diagnostic path f.line 1 (f.kind ++ ": " ++ f.text)))
      | .ok (_, m) => .ok m
  else .error (.compile ⟨diagnostics, source, path⟩)

theorem check_run (s : Session) : (check source references path).run s =
    (if (unresolvedReferences s.world references path ++ syntaxDiagnostics source path).isEmpty
      then .ok ⟨⟩
      else .error (.compile
        ⟨unresolvedReferences s.world references path ++ syntaxDiagnostics source path,
          source, path⟩), s) := by
  unfold check
  rw [run_bind_of_ok (run_get s)]
  dsimp only
  split_ifs <;> rfl

theorem run_failed {tree : FileTree} (f : CompileFailure)
    (hwritten : (Filing.write path data).run tree = (.ok ⟨⟩, s.files)) :
    ((do
      deleteIfThere path
      throw (.compile f) : Building Module).run s).1 =
        .error (if path ∈ s.files.locked then .file .locked else .compile f) := by
  rw [run_bind, deleteIfThere_written hwritten]
  split_ifs <;> rfl

theorem executeOrDelete_ending {tree : FileTree}
    (hwritten : (Filing.write path data).run tree = (.ok ⟨⟩, s.files))
    (hdiagnostics : (unresolvedReferences s.world references path ++
      syntaxDiagnostics source path).isEmpty) :
    ((executeOrDelete source path name).run s).1 =
      ending s.world (path ∈ s.files.locked) (s.sources.length + 1) source references path name := by
  unfold executeOrDelete ending
  rw [run_tryCatch, execute, if_pos rfl, if_pos hdiagnostics]
  rcases hloader : loader path
  · have hchecked : (checkLoader source path).run s = (.ok ⟨⟩, s) := by
      rw [checkLoader, hloader]
      rfl
    rw [run_bind_of_ok hchecked]
    rcases houtcome : outcome s.world (s.sources.length + 1) source name with f | ⟨w, m⟩
    · have hfailed : (runSource source path name "disk").run s = (.error (.compile
          ⟨[diagnostic path f.line 1 (f.kind ++ ": " ++ f.text)], source, path⟩),
            { s with sources := s.sources ++ [source] }) := by
        rw [runSource, run_bind_of_ok (run_get s), houtcome]
        rfl
      rw [hfailed]
      dsimp only
      rw [run_failed (s := { s with sources := s.sources ++ [source] }) _ hwritten]
      simp
    · have hmade : (runSource source path name "disk").run s = (.ok m, { s with
          sources := s.sources ++ [source], world := w
          log := s.log ++ [.compile ("Loaded " ++ name ++ " from " ++ "disk")] }) := by
        rw [runSource, run_bind_of_ok (run_get s), houtcome]
        rfl
      rw [hmade]
  · have hrefused : (checkLoader source path).run s = (.error .extension, s) := by
      rw [checkLoader, hloader]
      rfl
    rw [run_bind_of_error hrefused]
    rfl
  · have hrefused : (checkLoader source path).run s = (.error (.compile
        ⟨[diagnostic path 1 1 "Cannot create module spec"], source, path⟩), s) := by
      rw [checkLoader, hloader]
      rfl
    rw [run_bind_of_error hrefused]
    dsimp only
    rw [run_failed _ hwritten]
    simp

theorem compile_ending (hlocate : s.files.locate path = .ok l)
    (hfolder : s.files.isFolderAt l = false) (hnested : s.files.Nested) :
    ((compile source references path name true).run s).1 =
      ending s.world (path ∈ s.files.locked) (s.sources.length + 1) source references path name := by
  obtain ⟨k, hparent, haround⟩ := hnested.locate_parent hlocate
  unfold compile
  rw [run_bind_of_ok (run_modify s _), run_bind, check_run, if_pos rfl]
  dsimp only
  split_ifs with hdiagnostics
  · have hfolders : (filing (Filing.makeFolders path.parent)).run
        { s with compiles := s.compiles + 1 } = (.ok ⟨⟩, { s with compiles := s.compiles + 1 }) := by
      rw [run_filing, Filing.makeFolders_there hparent haround]
      rfl
    have hwrite := Filing.write_there (Text.encodeUtf8 source) hlocate hfolder
    dsimp only
    unfold install
    rw [run_bind_of_ok hfolders, run_bind, run_filing, hwrite]
    dsimp only [Except.mapError]
    rw [run_bind_of_ok (run_log _ _)]
    exact executeOrDelete_ending hwrite hdiagnostics
  · rw [ending, if_neg hdiagnostics]

/-- From one world a source makes the same module under every new number. -/
theorem outcome_renumbered {w v : World} {bound number number' : Nat} (hw : w.Within bound)
    (hbound : bound < number) (hbound' : bound < number')
    (h : outcome w number source name = .ok (v, m)) :
    ∃ v' m', outcome w number' source name = .ok (v', m') ∧
      ∃ ρ : Renumbering, ρ.module = name ∧ ρ.first = number ∧ ρ.second = number' ∧
        ρ.Copies v v' m m' := by
  obtain ⟨statements, _, hsource, -⟩ := outcome_ok h
  let ρ : Renumbering :=
    { module := name, first := number, second := number', bound := bound, others := []
      undotted := nofun, builtins := List.not_mem_nil, bound_lt_first := hbound
      bound_lt_second := hbound' }
  obtain ⟨v', m', hagain, hcopies⟩ := outcome_again (ρ := ρ) h hsource hsource hw hbound hw hbound'
    (World.Same.refl ..) (hw.apart name statements)
  exact ⟨v', m', hagain, ρ, rfl, rfl, rfl, hcopies⟩

/-- Under another number a compilation fails in the same way, or makes a module also. -/
theorem ending_again (source : String) (references : List String) (path : Path) (name : String)
    (locked : Bool) {w : World} {bound number number' : Nat} (hw : w.Within bound)
    (hbound : bound < number) (hbound' : bound < number') :
    (∃ e, ending w locked number source references path name = .error e ∧
      ending w locked number' source references path name = .error e) ∨
    ∃ m m', ending w locked number source references path name = .ok m ∧
      ending w locked number' source references path name = .ok m' := by
  unfold ending
  dsimp only
  by_cases hdiagnostics : (unresolvedReferences w references path ++
      syntaxDiagnostics source path).isEmpty = true
  · rw [if_pos hdiagnostics, if_pos hdiagnostics]
    rcases loader path
    · rcases houtcome : outcome w number source name with f | ⟨v, m⟩
      · rw [outcome_stumbles hw hbound hbound' houtcome]
        exact Or.inl ⟨_, rfl, rfl⟩
      · obtain ⟨statements, _, hsource, -⟩ := outcome_ok houtcome
        obtain ⟨v', m', hagain, -⟩ := outcome_renumbered hw hbound hbound' houtcome
        rw [hagain]
        exact Or.inr ⟨m, m', rfl, rfl⟩
    · exact Or.inl ⟨_, rfl, rfl⟩
    · exact Or.inl ⟨_, rfl, rfl⟩
  · rw [if_neg hdiagnostics, if_neg hdiagnostics]
    exact Or.inl ⟨_, rfl, rfl⟩

end Compilation

namespace Builder

variable (b : Builder) {path : Path} {s s' t t' : Session} {name : String} {data : List UInt8}
  {l : Location} {components : List Component}

/-! Deriving and compiling. -/

theorem derive_session (components : List Component) (path : Path) (t : Session) :
    ∃ converters formed log,
    ((b.derive components path).run t).2 =
      { t with converters := converters, formed := formed, log := log } := ⟨_, _, _, rfl⟩

/-- The same contracts are derived, or their derivation fails in the same way. -/
theorem derive_alike (h : Alike s t) :
    ((b.derive components path).run t).1 = ((b.derive components path).run s).1 := by
  unfold derive
  rw [run_bind_of_ok (run_get s), run_bind_of_ok (run_get t), h.world]
  refine congrArg (Except.mapError BuildError.emission)
    (Synthesizer.synthesize_blind (Emission.quiet_indistinct s.world) components _ _ ?_).1
  exact ⟨⟨rfl, h.converters, h.formed⟩, rfl, rfl, rfl⟩

theorem compileSource_result (plan : Blueprint) (s : Session) :
    ((b.compileSource plan path name).run s).1 = ((Compilation.compile plan.source plan.references
      path name b.settings.runtimeMode).run s).1 := by
  unfold compileSource
  rw [run_tryCatch]
  rcases (Compilation.compile plan.source plan.references path name b.settings.runtimeMode).run s
    with ⟨e | m, t⟩
  · cases e <;> rfl
  · rfl

/-- What a compilation comes to from where its path leads to a file. -/
theorem compile_result (components : List Component) (name : String) (hruntime : b.settings.runtimeMode = true)
    (hlocate : s.files.locate path = .ok l) (hfolder : s.files.isFolderAt l = false)
    (hnested : s.files.Nested) : ((b.compile components path name).run s).1 =
      ((b.derive components path).run s).1.bind fun plan =>
        (Compilation.ending s.world (path ∈ s.files.locked) (s.sources.length + 1) plan.source
          plan.references path name).map fun m =>
            { state := .compiled, module := m, path := some path
              artifact := some ⟨plan.source, plan.references, path, b.version, name⟩ } := by
  obtain ⟨k, hparent, haround⟩ := hnested.locate_parent hlocate
  obtain ⟨converters, formed, log, hsession⟩ := b.derive_session components path s
  rcases hderive : (b.derive components path).run s with ⟨e | plan, s₁⟩
  · unfold compile
    rw [run_bind_of_error hderive]
    rfl
  rw [hderive] at hsession
  obtain rfl : s₁ = _ := hsession
  have hfolders : (filing (Filing.makeFolders path.parent)).run
      { s with converters := converters, formed := formed, log := log } =
        (.ok ⟨⟩, { s with converters := converters, formed := formed, log := log }) := by
    rw [run_filing, Filing.makeFolders_there hparent haround]
    rfl
  have hending : ((b.compileSource plan path name).run
      { s with converters := converters, formed := formed, log := log }).1 =
        Compilation.ending s.world (path ∈ s.files.locked) (s.sources.length + 1) plan.source
          plan.references path name := by
    rw [b.compileSource_result, hruntime]
    exact Compilation.compile_ending hlocate hfolder hnested
  unfold compile
  rw [run_bind_of_ok hderive, run_bind_of_ok hfolders]
  dsimp only [Except.bind]
  rw [← hending]
  rcases hsource : (b.compileSource plan path name).run
    { s with converters := converters, formed := formed, log := log } with ⟨e | m, s₂⟩
  · rw [run_bind_of_error hsource]
    rfl
  · obtain ⟨cache, hrecord, -⟩ := b.run_record path name m s₂
    rw [run_bind_of_ok hsource, run_bind_of_ok hrecord]
    rfl

variable {b} in
/-- The module that a compilation answers with was made from the source that was derived. -/
theorem compile_born {result : BuildResult Module}
    (h : (b.compile components path name).run s = (.ok result, s')) :
    result.state = .compiled ∧ ∃ plan, ((b.derive components path).run s).1 = .ok plan ∧
      Born plan.source name result.module s s' := by
  obtain ⟨hstate, plan, s₁, s₂, s₃, -, hderive, hundone, hcompile, hrecords⟩ := b.compile_ok h
  obtain ⟨-, -, hborn, -⟩ := Compilation.compile_made hcompile
  refine ⟨hstate, plan, by rw [hderive], ?_⟩
  exact (hborn.after hundone.world hundone.sources).before hrecords.world hrecords.sources

/-- Compilations from two sessions that are alike end alike. -/
theorem compile_sameEnd (components : List Component) (name : String) {bound : Nat}
    (h : Alike s t) (hruntime : b.settings.runtimeMode = true)
    (hlocate : s.files.locate path = .ok l) (hfolder : s.files.isFolderAt l = false)
    (hnested : s.files.Nested) (hwithin : s.world.Within bound)
    (hs : bound ≤ s.sources.length) (ht : bound ≤ t.sources.length) :
    SameEnd ((b.compile components path name).run s) ((b.compile components path name).run t) := by
  have hfirst := b.compile_result components name hruntime hlocate hfolder hnested
  have hsecond := b.compile_result components name hruntime
    (h.locate hlocate) ((h.isFolderAt l).trans hfolder) (h.nested hnested)
  rw [b.derive_alike h, h.world, h.locked] at hsecond
  rcases hcompile : (b.compile components path name).run s with ⟨r, s'⟩
  rcases hcompile' : (b.compile components path name).run t with ⟨r', t'⟩
  rw [hcompile] at hfirst
  rw [hcompile'] at hsecond
  obtain rfl : r = _ := hfirst
  obtain rfl : r' = _ := hsecond
  rcases hplan : ((b.derive components path).run s).1 with e | plan
  · exact .failed e s' t'
  rw [hplan] at hcompile hcompile'
  dsimp only [Except.bind] at hcompile hcompile' ⊢
  rcases Compilation.ending_again plan.source plan.references path name (path ∈ s.files.locked)
    hwithin (Nat.lt_succ_of_le hs) (Nat.lt_succ_of_le ht) with ⟨e, he, he'⟩ | ⟨m, m', hm, hm'⟩
  · rw [he, he']
    exact .failed e s' t'
  · rw [hm] at hcompile ⊢
    rw [hm'] at hcompile' ⊢
    obtain ⟨hstate, plan₁, hplan₁, hborn⟩ := compile_born hcompile
    obtain ⟨-, plan₂, hplan₂, hborn'⟩ := compile_born hcompile'
    rw [b.derive_alike h] at hplan₂
    obtain rfl : plan₁ = plan := Except.ok.inj (hplan₁.symm.trans hplan)
    obtain rfl : plan₂ = plan₁ := Except.ok.inj (hplan₂.symm.trans hplan)
    have hmade : Compilation.outcome s.world m.number plan₂.source name = .ok (s'.world, m) :=
      hborn.outcome
    have hmade' : Compilation.outcome s.world m'.number plan₂.source name = .ok (t'.world, m') := by
      rw [← h.world]
      exact hborn'.outcome
    obtain ⟨v, n, hagain, ρ, hmodule, hρ, hρ', hcopies⟩ := Compilation.outcome_renumbered hwithin
      (Nat.lt_of_le_of_lt hs hborn.fresh) (Nat.lt_of_le_of_lt ht hborn'.fresh) hmade
    obtain ⟨rfl, rfl⟩ := Prod.mk.inj (Except.ok.inj (hagain.symm.trans hmade'))
    refine .compiled hstate rfl ⟨⟨ρ, ?_, hρ, hρ', hcopies⟩, _, _, hborn.executed, hborn'.executed, rfl⟩
    rw [hmodule]
    exact (Compilation.outcome_name hmade).symm

/-! Looking for an answer first. -/

theorem deleteStale_steady : Keeps Steady (deleteStale path) := by
  intro s
  unfold deleteStale
  rw [run_bind_of_ok (run_get s)]
  rcases hdelete : (Filing.delete path).run s.files with ⟨e | _, files⟩
  · obtain rfl := Filing.delete_unchanged hdelete
    exact { refl_of Steady s with }
  · obtain rfl := Filing.delete_ok hdelete
    exact { refl_of Steady s with home := rfl, folders := rfl, locked := rfl }

theorem lookFor_steady (p : Path) : Keeps Steady (lookFor p) := fun s => { refl_of Steady s with }

theorem isMatch_steady (p : Path) : Keeps Steady (b.isMatch p) := fun s => refl_of Steady s

theorem cleanup_steady : Keeps Steady (b.cleanup path) := by
  unfold cleanup
  split
  · refine (lookFor_steady path).bind fun found => ?_
    split
    · refine (b.isMatch_steady path).bind fun fits => ?_
      split
      · exact deleteStale_steady
      · exact .pure _
    · exact .pure _
  · exact .pure _

theorem survey_steady : Keeps Steady (b.survey path) :=
  b.cleanup_steady.bind fun _ => (lookFor_steady path).bind fun _ =>
    (b.isMatch_steady path).bind fun _ => (log_steady _).bind fun _ => .pure _

/-- Looking whether there is an artifact cannot fail. -/
theorem survey_succeeds (path : Path) (s : Session) :
    ∃ wanted t, (b.survey path).run s = (.ok wanted, t) ∧
    (wanted = true → Stamp.isMatch t.files path b.version = true) := by
  have hlook (p : Path) (P : BuildError → Prop) : FailsWith P (lookFor p) := .of_ok fun _ => ⟨_, _, rfl⟩
  have hmatch (p : Path) (P : BuildError → Prop) : FailsWith P (b.isMatch p) :=
    .of_ok fun _ => ⟨_, _, rfl⟩
  have hdelete (P : BuildError → Prop) : FailsWith P (deleteStale path) := by
    refine .of_ok fun s => ?_
    unfold deleteStale
    rw [run_bind_of_ok (run_get s)]
    split
    · exact ⟨_, _, rfl⟩
    · exact ⟨_, _, rfl⟩
  have hcleanup : FailsWith (fun _ => False) (b.cleanup path) := by
    unfold cleanup
    split
    · refine (hlook path _).bind fun found => ?_
      split
      · refine (hmatch path _).bind fun fits => ?_
        split
        · exact hdelete _
        · exact .pure _
      · exact .pure _
    · exact .pure _
  rcases h : (b.cleanup path).run s with ⟨e | _, t⟩
  · exact (hcleanup h).elim
  · refine ⟨_, _, run_bind_of_ok h, fun hwanted => ?_⟩
    obtain ⟨-, hfits⟩ := Bool.and_eq_true_iff.1 hwanted
    exact (Bool.and_eq_true_iff.1 hfits).2

theorem tryLoad_run (path : Path) (name : String) (s : Session) : (tryLoad path name).run s =
    match (Compilation.load path name).run s with
      | (.ok m, t) => (.ok (some m), t)
      | (.error (.compile f), t) => (.ok none, { t with log := t.log ++ [.build .warning
          ("Cached artifact " ++ path.text ++ " failed to load, rebuilding: " ++ f.message)] })
      | (.error e, t) => (.error e, t) := by
  unfold tryLoad
  rw [run_tryCatch, run_map]
  rcases (Compilation.load path name).run s with ⟨e | m, t⟩
  · cases e <;> rfl
  · rfl

/-- The module of an artifact: one that was loaded from its path before and shows the version, or one
made of its text now. -/
def Loads (path : Path) (data : List UInt8) (m : Module) (s s' : Session) : Prop :=
  s.cache.loaded? path = some m ∧ m.version? = some b.version ∨
    ∃ source, fileText data = some source ∧ Born source (Artifact.moduleName path) m s s'

/-- What keeps an artifact with the version from being loaded, besides its source. -/
def Spoils (path : Path) (data : List UInt8) (e : BuildError) : Prop :=
  e = .undecodable ∧ fileText data = none ∨ e = .extension ∧ Compilation.loader path = .extension

theorem loadArtifact_ends {r : Except BuildError (Option Module)}
    (hread : s.files.read? path = .ok data)
    (h : (b.loadArtifact path (Artifact.moduleName path)).run s = (r, s')) :
    (∃ m, r = .ok (some m) ∧ b.Loads path data m s s') ∨ r = .ok none ∧ Steady s s' ∨
      ∃ e, r = .error e ∧ Spoils path data e := by
  unfold loadArtifact at h
  rw [run_bind_of_ok (run_get s)] at h
  split at h
  next m hm =>
    cases h
    obtain ⟨hloaded, hversion⟩ := Option.filter_eq_some_iff.1 hm
    exact Or.inl ⟨m, rfl, Or.inl ⟨hloaded, of_decide_eq_true hversion⟩⟩
  · rw [run_bind, tryLoad_run] at h
    rcases hload : (Compilation.load path (Artifact.moduleName path)).run s with ⟨e | m, t⟩
    · obtain ⟨hsteady, ⟨f, rfl⟩ | hspoils⟩ := Compilation.load_stumbles hread hload
      · rw [hload] at h
        cases h
        exact Or.inr (Or.inl ⟨rfl, { hsteady with }⟩)
      · refine Or.inr (Or.inr ⟨e, ?_, hspoils⟩)
        rw [hload] at h
        rcases hspoils with ⟨rfl, -⟩ | ⟨rfl, -⟩ <;> cases h <;> rfl
    · rw [hload] at h
      cases h
      obtain ⟨-, data', source, hdata', htext, hmade⟩ := Compilation.load_made hload
      obtain rfl : data' = data :=
        Option.some.inj (hdata'.symm.trans (file?_of_read? hread))
      exact Or.inl ⟨m, rfl, Or.inr ⟨source, htext, { hmade.toBorn with }⟩⟩

theorem read_of_isMatch {tree : FileTree} {version : String}
    (h : Stamp.ofFile? tree path = some version) :
    ∃ data, tree.read? path = .ok data ∧ Stamp.ofData? data = some version := by
  unfold Stamp.ofFile? at h
  split at h
  next data hdata => exact ⟨data, hdata, h⟩
  · cases h

/-- A build that keeps files does not look for modules that were never kept. -/
theorem fromMemory_runtime (hruntime : b.settings.runtimeMode = true) (moduleName : String)
    (s : Session) : (b.fromMemory moduleName).run s = (.ok none, s) := by
  simp [fromMemory, hruntime, run_pure]

/-- A build that keeps files answers with the module of an artifact in its version, fails over such an
artifact, or finds nothing to reuse. -/
theorem reuse_ends {r : Except BuildError (Option Module)} (hruntime : b.settings.runtimeMode = true)
    (hread : s.files.read? path = .ok data)
    (h : (b.reuse path (Artifact.moduleName path)).run s = (r, s')) :
    (∃ m, r = .ok (some m) ∧ Stamp.ofData? data = some b.version ∧ b.Loads path data m s s') ∨
      r = .ok none ∧ Steady s s' ∨
        ∃ e, r = .error e ∧ Stamp.ofData? data = some b.version ∧ Spoils path data e := by
  obtain ⟨wanted, t, hsurvey, hwanted⟩ := b.survey_succeeds path s
  have hsteady := b.survey_steady.of_run hsurvey
  have hundone := (b.survey_undone path).of_run hsurvey
  unfold reuse at h
  rw [run_bind_of_ok hsurvey, run_bind] at h
  by_cases hdisk : (!b.settings.forceRebuild && wanted) = true
  · have hmatch := hwanted (Bool.and_eq_true_iff.1 hdisk).2
    obtain ⟨data', hread', hstamp⟩ := read_of_isMatch (of_decide_eq_true hmatch)
    obtain rfl : data' = data := by
      have hfile' := file?_of_read? hread'
      rw [hundone.resolve] at hfile'
      exact Option.some.inj
        ((some_of_same_or_gone hundone.file hfile').symm.trans (file?_of_read? hread))
    rw [fromDisk, if_pos hdisk] at h
    rcases hload : (b.loadArtifact path (Artifact.moduleName path)).run t with ⟨r', u⟩
    rw [hload] at h
    rcases b.loadArtifact_ends hread' hload with ⟨m, rfl, hloads⟩ | ⟨rfl, hrest⟩ | ⟨e, rfl, hspoils⟩
    · cases h
      refine Or.inl ⟨m, rfl, hstamp, ?_⟩
      rcases hloads with ⟨hentry, hversion⟩ | ⟨source, htext, hborn⟩
      · exact Or.inl ⟨some_of_same_or_gone hundone.entry hentry, hversion⟩
      · exact Or.inr ⟨source, htext, (hborn.after hsteady.world hsteady.sources).before rfl rfl⟩
    · dsimp only at h
      rw [run_bind_of_ok (b.fromMemory_runtime hruntime _ u)] at h
      cases h
      exact Or.inr (Or.inl ⟨rfl, trans_of Steady hsteady hrest⟩)
    · cases h
      exact Or.inr (Or.inr ⟨e, rfl, hstamp, hspoils⟩)
  · rw [fromDisk, if_neg hdisk] at h
    dsimp only [run_pure] at h
    rw [run_bind_of_ok (b.fromMemory_runtime hruntime _ t)] at h
    cases h
    exact Or.inr (Or.inl ⟨rfl, hsteady⟩)

/-- Without a file there is nothing to reuse. -/
theorem reuse_missing (hruntime : b.settings.runtimeMode = true)
    (hfile : s.files.file? (s.files.resolve path) = none) :
    ∃ t, (b.reuse path (Artifact.moduleName path)).run s = (.ok none, t) ∧ Steady s t := by
  obtain ⟨wanted, t, hsurvey, hwanted⟩ := b.survey_succeeds path s
  have hundone := (b.survey_undone path).of_run hsurvey
  have hnot : wanted = false := by
    by_contra hw
    obtain ⟨data, hread, -⟩ := read_of_isMatch (of_decide_eq_true (hwanted (by simpa using hw)))
    have hfile' := file?_of_read? hread
    rw [hundone.resolve] at hfile'
    rw [some_of_same_or_gone hundone.file hfile'] at hfile
    cases hfile
  subst hnot
  refine ⟨t, ?_, b.survey_steady.of_run hsurvey⟩
  unfold reuse
  rw [run_bind_of_ok hsurvey]
  simp [fromDisk, fromMemory, hruntime]
  rfl

end Builder

namespace Session

/-- The session without the file of a path. -/
def without (path : Path) (s : Session) : Session :=
  { s with files := s.files.removeFile (s.files.resolve path) }

variable {path : Path} {s s' t t' : Session} {r r' : Except BuildError (BuildResult Module)}

theorem Executed.of_sources {m : Module} {source : String} (h : Executed s m source)
    (hsources : s'.sources = s.sources) : Executed s' m source := by
  rw [Executed, hsources]
  exact h

theorem SameEnd.land (h : SameEnd (r, s) (r', t)) (hs : s'.world = s.world)
    (hs' : s'.sources = s.sources) (ht : t'.world = t.world) (ht' : t'.sources = t.sources) :
    SameEnd (r, s') (r', t') := by
  cases h with
  | failed e => exact .failed e s' t'
  | compiled hstate hsame hrepeats =>
    obtain ⟨⟨ρ, hmodule, hfirst, hsecond, hcopies⟩, source, source', hexecuted, hexecuted', hsource⟩ :=
      hrepeats
    rw [← hs, ← ht] at hcopies
    exact .compiled hstate hsame ⟨⟨ρ, hmodule, hfirst, hsecond, hcopies⟩, source, source',
      hexecuted.of_sources hs', hexecuted'.of_sources ht', hsource⟩

end Session

namespace Builder

variable {b : Builder} {path : Path} {s : Session} {data : List UInt8}

/-- A file that shows the version and is no text fails every build for its path, unless the table has
a module for it. -/
theorem undecodable_fails (components : List Component) (hruntime : b.settings.runtimeMode = true)
    (hforce : b.settings.forceRebuild = false)
    (hclean : ¬ (b.settings.cleanupEnabled = true ∧ b.settings.devMachine = true))
    (hread : s.files.read? path = .ok data) (hstamp : Stamp.ofData? data = some b.version)
    (htext : fileText data = none)
    (htable : ∀ m, s.cache.loaded? path = some m → m.version? ≠ some b.version) :
    ∃ s', (b.build components path).run s = (.error .undecodable, s') := by
  obtain ⟨t, hsurvey, hidles, hloaded⟩ := b.survey_wants hruntime hclean (s := takeOff path s)
    (isFile_of_read? hread) (isMatch_of_read hread hstamp)
  have hread' : t.files.read? path = .ok data := by
    rw [hidles.files]
    exact hread
  have hload : (Compilation.load path (Artifact.moduleName path)).run t =
      (.error .undecodable, { t with loads := t.loads + 1 }) := by
    unfold Compilation.load
    rw [run_bind_of_ok (run_modify t _), run_bind_of_ok (run_get _)]
    dsimp only
    rw [hread']
    dsimp only
    rw [htext]
    rfl
  have hunknown : (t.cache.loaded? path).filter (fun m => m.version? = some b.version) = none := by
    refine Option.filter_eq_none_iff.2 fun m hm hversion => htable m ?_ (of_decide_eq_true hversion)
    rw [BuildCache.loaded?, hloaded] at hm
    exact hm
  have hartifact : (b.loadArtifact path (Artifact.moduleName path)).run t =
      (.error .undecodable, { t with loads := t.loads + 1 }) := by
    have htry := tryLoad_run path (Artifact.moduleName path) t
    rw [hload] at htry
    unfold loadArtifact
    rw [run_bind_of_ok (run_get t), hunknown]
    exact run_bind_of_error htry
  have hdisk : b.fromDisk path (Artifact.moduleName path) true =
      b.loadArtifact path (Artifact.moduleName path) := by
    rw [fromDisk, hforce]
    rfl
  have hrun : (b.run components path).run (takeOff path s) =
      (.error .undecodable, { t with loads := t.loads + 1 }) := by
    unfold run reuse
    simp only [run_bind, hsurvey, hdisk, hartifact]
  exact ⟨_, by rw [build_eq, hrun]⟩

end Builder

/-! An artifact that is cut short, and one that ends in an octet that is no text. -/

namespace Sparse

def stamp : String := "__generator_version__ = \"1\"\n"

/-- The session with a file at the place. -/
def holding (data : List UInt8) : Session :=
  { session with files := { files := [(["App.py"], data)] } }

def broken : List UInt8 := Text.encodeUtf8 (stamp ++ "class IModelAppA(")

theorem holding_numbered (data : List UInt8) : (holding data).Numbered := session_numbered

theorem holding_read (data : List UInt8) : (holding data).files.read? place = .ok data := rfl

def padding : Nat := Stamp.portion - stamp.length

def octets : List UInt8 := Text.encodeUtf8 stamp ++ List.replicate padding 10

def spoiled : List UInt8 := octets ++ [255]

theorem decodeFrom_padding (n : Nat) :
    Text.decodeFrom .ready (List.replicate n 10) = some (List.replicate n '\n', .ready) := by
  induction n with
  | zero => rfl
  | succ n ih =>
    rw [List.replicate_succ, List.replicate_succ, Text.decodeFrom_cons_iff]
    exact ⟨.ready, some '\n', _, rfl, ih, rfl⟩

theorem decodeFrom_octets : Text.decodeFrom .ready octets =
    some (stamp.toList ++ List.replicate padding '\n', .ready) :=
  Text.decodeFrom_append_iff.2
    ⟨_, _, _, Text.decodeFrom_encodeUtf8 stamp, decodeFrom_padding padding, rfl⟩

theorem octets_length : octets.length = Stamp.portion := by
  have hstamp : (Text.encodeUtf8 stamp).length = stamp.length := by decide +kernel
  rw [octets, List.length_append, List.length_replicate, hstamp]
  decide +kernel

theorem spoiled_stamp : Stamp.ofData? spoiled = some builder.version := by
  have hreturn : '\r' ∉ stamp.toList ++ List.replicate padding '\n' := by
    rw [List.mem_append, List.mem_replicate]
    rintro (hstamp | ⟨-, hnewline⟩)
    · revert hstamp
      decide +kernel
    · cases hnewline
  have hlength : Stamp.window ≤ (stamp.toList ++ List.replicate padding '\n').length := by
    rw [List.length_append, List.length_replicate]
    decide +kernel
  have hhead := fileHead_start [255] decodeFrom_octets hreturn (by decide) hlength
  rw [octets_length] at hhead
  unfold Stamp.ofData? spoiled
  rw [hhead, List.take_append]
  rfl

theorem spoiled_no_text : fileText spoiled = none := by
  have hnone : Text.decodeFrom .ready spoiled = none := by
    refine Option.eq_none_iff_forall_ne_some.2 fun (cs, final) h => ?_
    obtain ⟨_, st, after, hbefore, hafter, -⟩ := Text.decodeFrom_append_iff.1 h
    rw [decodeFrom_octets] at hbefore
    cases hbefore
    cases hafter
  rw [fileText, Text.decodeUtf8, hnone]
  rfl

end Sparse

end ModelContracts
