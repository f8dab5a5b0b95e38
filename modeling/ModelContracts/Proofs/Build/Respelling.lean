import ModelContracts.Proofs.Build.Rebuilding
import ModelContracts.Proofs.Build.Spelling
import ModelContracts.Proofs.Synthesis.Indistinct

/-!
Builds for one file by two spellings of its path. They do the same and end alike, as long as the table of
what was loaded answers alike for the two: it keeps modules by the path as it is written, while everything
else goes by the file.
-/

namespace ModelContracts

open FileTree Building Session

/-! The same but for the path. -/

/-- What is wrong in a source: lines and columns with their messages. -/
abbrev Faults := List (Nat × Nat × String)

def Faults.diagnostics (faults : Faults) (path : Path) : List String :=
  faults.map fun (line, column, message) => Compilation.diagnostic path line column message

/-- The same error for another path. -/
inductive SameFault (p q : Path) : BuildError → BuildError → Prop
  | compile (faults : Faults) (source : String) :
      SameFault p q (.compile ⟨faults.diagnostics p, source, p⟩)
        (.compile ⟨faults.diagnostics q, source, q⟩)
  | other {e : BuildError} (h : ∀ f, e ≠ .compile f) : SameFault p q e e

/-- The same answer for another path. -/
def BuildResult.respelled {μ : Type} (q : Path) (r : BuildResult μ) : BuildResult μ :=
  { r with path := some q, artifact := r.artifact.map fun a => { a with path := q } }

namespace Session

/-- What builds go by is the same, but for what they find by the path as it is written. -/
structure Twin (s t : Session) : Prop where
  world : t.world = s.world
  files : t.files = s.files
  converters : t.converters = s.converters
  formed : t.formed = s.formed
  sources : t.sources = s.sources
  modules : t.cache.modules = s.cache.modules

/-- The sessions differ in the spelling of a file, for which the table has entries that agree. -/
structure Twins (A : Option Module → Option Module → Prop) (p q : Path) (s t : Session) : Prop
    extends Twin s t where
  oneFile : s.files.OneFile p q
  locks : q ∈ s.files.locked ↔ p ∈ s.files.locked
  entry : A (s.cache.loaded? p) (t.cache.loaded? q)

variable {A : Option Module → Option Module → Prop} {p q : Path}

theorem Twins.isFile {s t : Session} (h : Twins A p q s t) : t.files.isFile q = s.files.isFile p := by
  rw [h.files, h.oneFile.isFile]

theorem Twins.read? {s t : Session} (h : Twins A p q s t) : t.files.read? q = s.files.read? p := by
  rw [h.files, h.oneFile.read?]

theorem log_parallel (r r' : LogRecord) :
    Parallel (Twins A p q) (SameFault p q) Eq (Building.log r) (Building.log r') :=
  Parallel.modify fun _ _ h => { h with }

theorem filing_parallel {α : Type} {m n : Filing α}
    (halike : ∀ t : FileTree, t.OneFile p q → (q ∈ t.locked ↔ p ∈ t.locked) → n.run t = m.run t)
    (haround : Keeps (FileTree.Around p) m) (hlocked : Keeps (fun t t' => t'.locked = t.locked) m) :
    Parallel (Twins A p q) (SameFault p q) Eq (filing m) (filing n) := by
  intro s t h
  have hlocks : q ∈ (m.run s.files).2.locked ↔ p ∈ (m.run s.files).2.locked := by
    rw [hlocked s.files]
    exact h.locks
  rw [run_filing, run_filing, h.files, halike s.files h.oneFile h.locks]
  refine ⟨?_, { h with
    files := rfl, oneFile := h.oneFile.beside (haround s.files), locks := hlocks, entry := h.entry }⟩
  rcases (m.run s.files).1 with e | a
  · exact .error (.other nofun)
  · exact .ok rfl

theorem makeFolders_parallel : Parallel (Twins A p q) (SameFault p q) Eq
    (filing (Filing.makeFolders p.parent)) (filing (Filing.makeFolders q.parent)) :=
  filing_parallel (fun _ hone _ => Filing.makeFolders_parent_alike hone) (Filing.makeFolders_around p _)
    fun t => (Filing.makeFolders_keeps p.parent t).locked

theorem write_parallel (data : List UInt8) : Parallel (Twins A p q) (SameFault p q) Eq
    (filing (Filing.write p data)) (filing (Filing.write q data)) := by
  refine filing_parallel (fun _ hone _ => Filing.write_alike hone data) (Filing.write_around p data)
    fun t => ?_
  rcases h : (Filing.write p data).run t with ⟨e | _, t'⟩
  · rw [Filing.write_unchanged h]
  · rw [Filing.write_ok h]
    rfl

theorem delete_locked : Keeps (fun t t' => t'.locked = t.locked) (Filing.delete p) := by
  intro t
  rcases h : (Filing.delete p).run t with ⟨e | _, t'⟩
  · rw [Filing.delete_unchanged h]
  · rw [Filing.delete_ok h]
    rfl

theorem delete_parallel : Parallel (Twins A p q) (SameFault p q) Eq
    (filing (Filing.delete p)) (filing (Filing.delete q)) :=
  filing_parallel (fun _ hone hlocks => Filing.delete_alike hone hlocks) (Filing.delete_around p)
    delete_locked

end Session

namespace Compilation

variable {A : Option Module → Option Module → Prop} {p q : Path} {name : String}

theorem exists_faults (w : World) (source : String) (references : List String) : ∃ faults : Faults,
    ∀ path, unresolvedReferences w references path ++ syntaxDiagnostics source path =
      faults.diagnostics path := by
  let missing : Faults := (((Text.sorted references).eraseDups).filter fun n => !resolves w n).map fun n =>
    (1, 1, "Cannot resolve module reference '" ++ n ++ "'")
  have hmissing (path : Path) : unresolvedReferences w references path = missing.diagnostics path := by
    simp [unresolvedReferences, missing, Faults.diagnostics]
  rcases hsource : Statement.ofSource source with f | statements
  · refine ⟨missing ++ [(f.line, f.column, f.message)], fun path => ?_⟩
    rw [hmissing, syntaxDiagnostics, hsource]
    simp [Faults.diagnostics]
  · refine ⟨missing, fun path => ?_⟩
    rw [hmissing, syntaxDiagnostics, hsource, List.append_nil]

theorem check_parallel (source : String) (references : List String) :
    Parallel (Twins A p q) (SameFault p q) Eq (check source references p) (check source references q) := by
  refine Parallel.get_bind fun s t h => ?_
  obtain ⟨faults, hfaults⟩ := exists_faults s.world source references
  rw [h.world]
  dsimp only
  rw [hfaults p, hfaults q]
  have hempty : (faults.diagnostics q).isEmpty = (faults.diagnostics p).isEmpty := by
    rw [Faults.diagnostics, Faults.diagnostics, List.isEmpty_map, List.isEmpty_map]
  rw [hempty]
  split
  · exact .pure rfl
  · exact .throw (.compile faults source)

theorem checkLoader_parallel (hloader : loader q = loader p) (source : String) :
    Parallel (Twins A p q) (SameFault p q) Eq (checkLoader source p) (checkLoader source q) := by
  unfold checkLoader
  rw [hloader]
  split
  · exact .pure rfl
  · exact .throw (.other nofun)
  · exact .throw (.compile [(1, 1, "Cannot create module spec")] source)

theorem runSource_parallel (source origin : String) : Parallel (Twins A p q) (SameFault p q) Eq
    (runSource source p name origin) (runSource source q name origin) := by
  refine Parallel.get_bind fun s t h => ?_
  rw [h.world, h.sources]
  have hgrown (w w' : Session → World) (hw : ∀ s t, Twins A p q s t → w' t = w s) :
      Parallel (Twins A p q) (SameFault p q) Eq
        (modify fun s => { s with sources := s.sources ++ [source], world := w s } : Building PUnit)
        (modify fun s => { s with sources := s.sources ++ [source], world := w' s } : Building PUnit) :=
    Parallel.modify fun s t h => { h with world := hw s t h, sources := congrArg (· ++ [source]) h.sources }
  split
  next f _ =>
    refine Parallel.bind_eq (hgrown (·.world) (·.world) fun _ _ h => h.world) fun _ => ?_
    exact .throw (.compile [(f.line, 1, f.kind ++ ": " ++ f.text)] source)
  next w m _ =>
    exact Parallel.bind_eq (hgrown (fun _ => w) (fun _ => w) fun _ _ _ => rfl) fun _ =>
      (log_parallel _ _).bind_eq fun _ => .pure rfl

theorem execute_parallel (hloader : loader q = loader p) (source : String) (fromFile : Bool) :
    Parallel (Twins A p q) (SameFault p q) Eq (execute source p name fromFile)
      (execute source q name fromFile) := by
  unfold execute
  split
  · exact (checkLoader_parallel hloader source).bind_eq fun _ => runSource_parallel source _
  · exact runSource_parallel source _

theorem deleteIfThere_parallel :
    Parallel (Twins A p q) (SameFault p q) Eq (deleteIfThere p) (deleteIfThere q) := by
  refine delete_parallel.tryCatch fun e e' he => ?_
  cases he with
  | compile faults source => exact .throw (.compile faults source)
  | other h =>
    split
    · exact .pure rfl
    · exact .throw (.other h)

theorem executeOrDelete_parallel (hloader : loader q = loader p) (source : String) :
    Parallel (Twins A p q) (SameFault p q) Eq (executeOrDelete source p name)
      (executeOrDelete source q name) := by
  refine (execute_parallel hloader source true).tryCatch fun e e' he => ?_
  cases he with
  | compile faults source =>
    exact deleteIfThere_parallel.bind_eq fun _ => .throw (.compile faults source)
  | other h =>
    split
    next f => exact (h f rfl).elim
    next => exact Parallel.throw (.other h)

theorem install_parallel (hloader : loader q = loader p) (source : String) :
    Parallel (Twins A p q) (SameFault p q) Eq (install source p name) (install source q name) :=
  makeFolders_parallel.bind_eq fun _ => (write_parallel _).bind_eq fun _ =>
    (log_parallel _ _).bind_eq fun _ => executeOrDelete_parallel hloader source

theorem compile_parallel (hloader : loader q = loader p) (source : String) (references : List String)
    (persist : Bool) : Parallel (Twins A p q) (SameFault p q) Eq
      (compile source references p name persist) (compile source references q name persist) := by
  refine Parallel.bind_eq (Parallel.modify fun _ _ h => { h with }) fun _ =>
    (check_parallel source references).bind_eq fun _ => ?_
  split
  · exact install_parallel hloader source
  · exact execute_parallel hloader source false

theorem load_parallel (hloader : loader q = loader p) :
    Parallel (Twins A p q) (SameFault p q) Eq (load p name) (load q name) := by
  refine Parallel.bind_eq (Parallel.modify fun _ _ h => { h with }) fun _ =>
    Parallel.get_bind fun s t h => ?_
  rw [h.read?]
  split
  · exact .throw (.other nofun)
  · split
    · exact .throw (.other nofun)
    · exact (check_parallel _ _).bind_eq fun _ => execute_parallel hloader _ true

end Compilation

namespace Builder

variable (b : Builder) {A : Option Module → Option Module → Prop} {p q : Path} {name : String}

theorem lookFor_parallel : Parallel (Twins A p q) (SameFault p q) Eq (lookFor p) (lookFor q) :=
  fun _ _ h => ⟨.ok h.isFile.symm, { h with }⟩

theorem isMatch_parallel : Parallel (Twins A p q) (SameFault p q) Eq (b.isMatch p) (b.isMatch q) := by
  refine Parallel.get_bind fun s t h => ?_
  have hmatch : Stamp.isMatch t.files q b.version = Stamp.isMatch s.files p b.version := by
    unfold Stamp.isMatch Stamp.ofFile?
    rw [h.read?]
  rw [hmatch]
  exact .pure rfl

theorem deleteStale_parallel (hA : ∀ o, A o o) :
    Parallel (Twins A p q) (SameFault p q) Eq (deleteStale p) (deleteStale q) := by
  intro s t h
  have hdelete := Filing.delete_alike h.oneFile h.locks
  have hone := h.oneFile.beside (Filing.delete_around p s.files)
  have hlocks : q ∈ ((Filing.delete p).run s.files).2.locked ↔
      p ∈ ((Filing.delete p).run s.files).2.locked := by
    rw [delete_locked s.files]
    exact h.locks
  unfold deleteStale
  rw [run_bind_of_ok (run_get s), run_bind_of_ok (run_get t), h.files, hdelete]
  rcases hrun : (Filing.delete p).run s.files with ⟨e | _, tree⟩ <;> rw [hrun] at hone hlocks
  · exact ⟨.ok rfl, { h with files := rfl, oneFile := hone, locks := hlocks, entry := h.entry }⟩
  · have hentry : A ((s.cache.forget p).loaded? p) ((t.cache.forget q).loaded? q) := by
      rw [BuildCache.loaded?_forget, BuildCache.loaded?_forget, if_pos rfl, if_pos rfl]
      exact hA none
    exact ⟨.ok rfl, { h with files := rfl, oneFile := hone, locks := hlocks, entry := hentry }⟩

theorem cleanup_parallel (hA : ∀ o, A o o) :
    Parallel (Twins A p q) (SameFault p q) Eq (b.cleanup p) (b.cleanup q) := by
  unfold cleanup
  split
  · refine lookFor_parallel.bind_eq fun found => ?_
    split
    · refine b.isMatch_parallel.bind_eq fun fits => ?_
      split
      · exact deleteStale_parallel hA
      · exact .pure rfl
    · exact .pure rfl
  · exact .pure rfl

theorem survey_parallel (hA : ∀ o, A o o) :
    Parallel (Twins A p q) (SameFault p q) Eq (b.survey p) (b.survey q) :=
  (b.cleanup_parallel hA).bind_eq fun _ => lookFor_parallel.bind_eq fun _ =>
    b.isMatch_parallel.bind_eq fun _ => (log_parallel _ _).bind_eq fun _ => .pure rfl

theorem tryLoad_parallel (hloader : Compilation.loader q = Compilation.loader p) :
    Parallel (Twins A p q) (SameFault p q) Eq (tryLoad p name) (tryLoad q name) := by
  refine (Compilation.load_parallel hloader).map.tryCatch fun e e' he => ?_
  cases he with
  | compile faults source => exact (log_parallel _ _).bind_eq fun _ => .pure rfl
  | other h =>
    split
    next f => exact (h f rfl).elim
    next => exact .throw (.other h)

/-- The entries of the table give the same module in the version, or none. -/
def Agrees (o o' : Option Module) : Prop :=
  (o'.filter fun m => m.version? = some b.version) = o.filter fun m => m.version? = some b.version

theorem loadArtifact_parallel (hA : ∀ o, A o o) (hagrees : ∀ o o', A o o' → b.Agrees o o')
    (hloader : Compilation.loader q = Compilation.loader p) :
    Parallel (Twins A p q) (SameFault p q) Eq (b.loadArtifact p name) (b.loadArtifact q name) := by
  refine Parallel.get_bind fun s t h => ?_
  rw [hagrees _ _ h.entry]
  split
  · exact .pure rfl
  · refine (tryLoad_parallel hloader).bind_eq fun o => ?_
    split
    · exact .pure rfl
    next m =>
      refine Parallel.bind_eq (Parallel.modify fun s t h => ?_) fun _ => .pure rfl
      have hmodules : setEntry name m t.cache.modules = setEntry name m s.cache.modules :=
        congrArg (setEntry name m) h.modules
      have hentry : A ((s.cache.putLoaded p m).loaded? p) ((t.cache.putLoaded q m).loaded? q) := by
        rw [BuildCache.loaded?_putLoaded, BuildCache.loaded?_putLoaded, if_pos rfl, if_pos rfl]
        exact hA (some m)
      exact { h with modules := hmodules, entry := hentry }

theorem fromDisk_parallel (hA : ∀ o, A o o)
    (hagrees : b.settings.forceRebuild = false → ∀ o o', A o o' → b.Agrees o o')
    (hloader : Compilation.loader q = Compilation.loader p) (wanted : Bool) :
    Parallel (Twins A p q) (SameFault p q) Eq (b.fromDisk p name wanted) (b.fromDisk q name wanted) := by
  unfold fromDisk
  split
  next hwanted =>
    have hforce : b.settings.forceRebuild = false := by simpa using (Bool.and_eq_true_iff.1 hwanted).1
    exact b.loadArtifact_parallel hA (hagrees hforce) hloader
  next => exact .pure rfl

theorem fromMemory_parallel (name : String) :
    Parallel (Twins A p q) (SameFault p q) Eq (b.fromMemory name) (b.fromMemory name) := by
  unfold fromMemory
  split
  · refine Parallel.get_bind fun s t h => ?_
    have hmodule : t.cache.module? name = s.cache.module? name := by
      rw [BuildCache.module?, h.modules, BuildCache.module?]
    rw [hmodule]
    exact .pure rfl
  · exact .pure rfl

theorem reuse_parallel (hA : ∀ o, A o o)
    (hagrees : b.settings.forceRebuild = false → ∀ o o', A o o' → b.Agrees o o')
    (hloader : Compilation.loader q = Compilation.loader p) :
    Parallel (Twins A p q) (SameFault p q) Eq (b.reuse p name) (b.reuse q name) := by
  refine (b.survey_parallel hA).bind_eq fun wanted =>
    (b.fromDisk_parallel hA hagrees hloader wanted).bind_eq fun o => ?_
  split
  · exact (log_parallel _ _).bind_eq fun _ => .pure rfl
  · refine (b.fromMemory_parallel name).bind_eq fun o => ?_
    split
    · exact (log_parallel _ _).bind_eq fun _ => .pure rfl
    · exact .pure rfl

theorem derive_parallel (hstem : Artifact.stem q = Artifact.stem p) (components : List Component) :
    Parallel (Twins A p q) (SameFault p q) Eq (b.derive components p) (b.derive components q) := by
  intro s t h
  let synthesizer : Synthesizer :=
    { world := s.world, stem := Artifact.stem p, version := b.version
      namePrefix := b.settings.namePrefix, book := b.book }
  let draft (u : Session) : Draft := { emission := { Emission.start s.world ClassId.modelNode with
    memory := u.converters, formed := u.formed, log := u.log } }
  have hstart : Draft.Related Emission.Quiet (draft s) (draft t) :=
    ⟨⟨rfl, h.converters, h.formed⟩, rfl, rfl, rfl⟩
  obtain ⟨hresult, hends⟩ := Synthesizer.synthesize_blind (s := synthesizer)
    (Emission.quiet_indistinct s.world) components (draft s) (draft t) hstart
  have hrun (u : Session) : (synthesizing (draft u) (synthesizer.synthesize components)).run u =
      (((synthesizer.synthesize components).run (draft u)).1.mapError BuildError.emission, { u with
        converters := ((synthesizer.synthesize components).run (draft u)).2.emission.memory
        formed := ((synthesizer.synthesize components).run (draft u)).2.emission.formed
        log := ((synthesizer.synthesize components).run (draft u)).2.emission.log }) := rfl
  unfold derive
  rw [run_bind_of_ok (run_get s), run_bind_of_ok (run_get t), h.world, hstem]
  show Pairs _ _ ((synthesizing (draft s) (synthesizer.synthesize components)).run s).1
    ((synthesizing (draft t) (synthesizer.synthesize components)).run t).1 ∧ _
  rw [hrun s, hrun t, hresult]
  refine ⟨?_, { h with converters := hends.emission.memory, formed := hends.emission.formed }⟩
  rcases ((synthesizer.synthesize components).run (draft s)).1 with e | plan
  · exact .error (.other nofun)
  · exact .ok rfl

theorem compileSource_parallel (hloader : Compilation.loader q = Compilation.loader p) (plan : Blueprint) :
    Parallel (Twins A p q) (SameFault p q) Eq (b.compileSource plan p name)
      (b.compileSource plan q name) := by
  refine (Compilation.compile_parallel hloader _ _ _).tryCatch fun e e' he => ?_
  have hlogged : Parallel (Twins A p q) (SameFault p q) Eq (logFailure p e) (logFailure q e') := by
    unfold logFailure
    cases he with
    | compile faults source => exact log_parallel _ _
    | other h =>
      split
      next f => exact (h f rfl).elim
      next => exact .pure rfl
  exact hlogged.bind_eq fun _ => .throw he

theorem record_parallel (hA : ∀ o, A o o) (m : Module) :
    Parallel (Twins A p q) (SameFault p q) Eq (b.record p name m) (b.record q name m) := by
  refine Parallel.bind_eq (Parallel.modify fun s t h => ?_) fun _ => ?_
  · have hmodules : setEntry name m t.cache.modules = setEntry name m s.cache.modules :=
      congrArg (setEntry name m) h.modules
    exact { h with modules := hmodules }
  · split
    · refine Parallel.bind_eq (Parallel.modify fun s t h => ?_) fun _ =>
        lookFor_parallel.bind_eq fun _ => .pure rfl
      have hentry : A ((s.cache.putLoaded p m).loaded? p) ((t.cache.putLoaded q m).loaded? q) := by
        rw [BuildCache.loaded?_putLoaded, BuildCache.loaded?_putLoaded, if_pos rfl, if_pos rfl]
        exact hA (some m)
      exact { h with entry := hentry }
    · exact .pure rfl

theorem compile_parallel (hA : ∀ o, A o o) (hloader : Compilation.loader q = Compilation.loader p)
    (hstem : Artifact.stem q = Artifact.stem p) (components : List Component) :
    Parallel (Twins A p q) (SameFault p q) (fun r r' => r' = r.respelled q)
      (b.compile components p name) (b.compile components q name) :=
  (b.derive_parallel hstem components).bind_eq fun plan => makeFolders_parallel.bind_eq fun _ =>
    (b.compileSource_parallel hloader plan).bind_eq fun m => (b.record_parallel hA m).bind_eq fun _ =>
      (log_parallel _ _).bind_eq fun _ => .pure rfl

theorem run_parallel (hA : ∀ o, A o o)
    (hagrees : b.settings.forceRebuild = false → ∀ o o', A o o' → b.Agrees o o')
    (hloader : Compilation.loader q = Compilation.loader p) (hstem : Artifact.stem q = Artifact.stem p)
    (components : List Component) :
    Parallel (Twins A p q) (SameFault p q) (fun r r' => r' = r.respelled q)
      (b.run components p) (b.run components q) := by
  unfold run
  rw [Artifact.moduleName_of_stem hstem]
  refine (b.reuse_parallel hA hagrees hloader).bind_eq fun o => ?_
  split
  · exact .pure rfl
  · exact b.compile_parallel hA hloader hstem components

/-- Builds for one file by two spellings do the same if the entries of the table agree, which are not asked
for if a rebuild is forced. -/
theorem build_parallel (hA : ∀ o, A o o)
    (hagrees : b.settings.forceRebuild = false → ∀ o o', A o o' → b.Agrees o o')
    (components : List Component) :
    Parallel (Twins A p q) (SameFault p q) (fun r r' => r' = r.respelled q)
      (b.build components p) (b.build components q) := by
  intro s t h
  have hstart : Twins A p q (takeOff p s) (takeOff q t) := { h with }
  obtain ⟨houtcome, hends⟩ := b.run_parallel hA hagrees (Compilation.loader_of_oneFile h.oneFile)
    (Artifact.stem_of_name h.oneFile.name) components _ _ hstart
  rw [build_eq, build_eq]
  exact ⟨houtcome, { hends with }⟩

end Builder

/-! Runs of builds through one cache. -/

/-- A build that is asked for. -/
structure Call where
  builder : Builder
  components : List Component
  path : Path

namespace Call

variable {c : Call} {q : Path} {s t : Session}

def run (c : Call) : Building (BuildResult Module) := c.builder.build c.components c.path

/-- The session that a call leaves. -/
def after (c : Call) (s : Session) : Session := (c.run.run s).2

def respelled (c : Call) (q : Path) : Call := { c with path := q }

/-- The path leads to the same file by the other spelling, which is locked like it; and unless a rebuild is
forced, the tables say the same for the two. -/
structure Exchangeable (c : Call) (q : Path) (s t : Session) : Prop where
  oneFile : s.files.OneFile c.path q
  locks : q ∈ s.files.locked ↔ c.path ∈ s.files.locked
  entry : c.builder.settings.forceRebuild = false →
    c.builder.Agrees (s.cache.loaded? c.path) (t.cache.loaded? q)

/-- The call ends by the other spelling as it does by its own: with the same module in the same state, or with
the same error; and modules are made from the same sources. -/
structure EndsAlike (c : Call) (q : Path) (s t : Session) : Prop where
  outcome : Pairs (SameFault c.path q) (fun r r' => r' = r.respelled q) (c.run.run s).1
    ((c.respelled q).run.run t).1
  executed : ∀ m source, Executed ((c.respelled q).after t) m source ↔ Executed (c.after s) m source

theorem Exchangeable.step (h : c.Exchangeable q s t) (htwin : Twin s t) :
    c.EndsAlike q s t ∧ Twin (c.after s) ((c.respelled q).after t) := by
  let A (o o' : Option Module) : Prop := c.builder.settings.forceRebuild = false → c.builder.Agrees o o'
  have hstart : Twins A c.path q s t := { htwin with
    oneFile := h.oneFile, locks := h.locks, entry := h.entry }
  have hA (o : Option Module) : A o o := fun _ => rfl
  have hagrees (hforce : c.builder.settings.forceRebuild = false) (o o' : Option Module) (ho : A o o') :
      c.builder.Agrees o o' := ho hforce
  obtain ⟨houtcome, hends⟩ := c.builder.build_parallel hA hagrees c.components s t hstart
  refine ⟨⟨houtcome, fun m source => ?_⟩, hends.toTwin⟩
  have hsources : ((c.respelled q).after t).sources = (c.after s).sources := hends.sources
  rw [Executed, Executed, hsources]

end Call

/-- What holds of every step of a run, whose calls are made by their own paths from one session on, and by the
paths that stand with them from another. -/
def EachStep (P : Call → Path → Session → Session → Prop) : List (Call × Path) → Session → Session → Prop
  | [], _, _ => True
  | (c, q) :: steps, s, t => P c q s t ∧ EachStep P steps (c.after s) ((c.respelled q).after t)

/-- Runs of which every call can be made by either spelling end alike at every step. -/
theorem respelled_run (steps : List (Call × Path)) {s t : Session} (htwin : Twin s t)
    (h : EachStep Call.Exchangeable steps s t) : EachStep Call.EndsAlike steps s t := by
  induction steps generalizing s t with
  | nil => trivial
  | cons step steps ih =>
    obtain ⟨c, q⟩ := step
    obtain ⟨hcall, hrest⟩ := h
    obtain ⟨hends, htwin'⟩ := hcall.step htwin
    exact ⟨hends, ih htwin' hrest⟩

/-! Runs that spell each file in one way. -/

/-- The paths lead to the same files by other spellings, for which the tables say the same. -/
structure Session.Spelled (σ : Path → Path) (paths : Path → Prop) (s t : Session) : Prop
    extends Twin s t where
  oneFile : ∀ p, paths p → s.files.OneFile p (σ p)
  locks : ∀ p, paths p → (σ p ∈ s.files.locked ↔ p ∈ s.files.locked)
  entry : ∀ p, paths p → t.cache.loaded? (σ p) = s.cache.loaded? p

section Spelled

variable {σ : Path → Path} {paths : Path → Prop} {s t : Session}

theorem Session.Spelled.exchangeable (h : Spelled σ paths s t) {c : Call} (hpath : paths c.path) :
    c.Exchangeable (σ c.path) s t where
  oneFile := h.oneFile _ hpath
  locks := h.locks _ hpath
  entry _ := by
    rw [h.entry _ hpath]
    rfl

theorem Session.Spelled.step (h : Spelled σ paths s t)
    (hσ : ∀ p q, paths p → paths q → σ p = σ q → p = q) {c : Call} (hpath : paths c.path) :
    Spelled σ paths (c.after s) ((c.respelled (σ c.path)).after t) := by
  have hstart : Twins Eq c.path (σ c.path) s t := { h with
    oneFile := h.oneFile _ hpath, locks := h.locks _ hpath, entry := (h.entry _ hpath).symm }
  have hagrees (o o' : Option Module) (ho : o = o') : c.builder.Agrees o o' := by
    rw [ho]
    rfl
  obtain ⟨-, hends⟩ := c.builder.build_parallel (fun _ => rfl) (fun _ => hagrees) c.components s t hstart
  have hframe : Frame c.path s (c.after s) := c.builder.build_frame c.components c.path s
  have hframe' : Frame (σ c.path) t ((c.respelled (σ c.path)).after t) :=
    c.builder.build_frame c.components (σ c.path) t
  have hbeside := (c.builder.build_touches c.components c.path s).files
  refine { hends.toTwin with oneFile := fun p hp => ?_, locks := fun p hp => ?_, entry := fun p hp => ?_ }
  · exact (h.oneFile p hp).beside hbeside
  · rw [hframe.locked]
    exact h.locks p hp
  · by_cases hother : p = c.path
    · rw [hother]
      exact hends.entry.symm
    · have hother' : σ p ≠ σ c.path := fun heq => hother (hσ p c.path hp hpath heq)
      rw [hframe'.others _ hother', hframe.others _ hother, h.entry p hp]

/-- Every call of a run can be made by the other spelling, if the same paths are always respelled alike. -/
theorem Session.Spelled.run (calls : List Call) (h : Spelled σ paths s t)
    (hσ : ∀ p q, paths p → paths q → σ p = σ q → p = q) (hpaths : ∀ c ∈ calls, paths c.path) :
    EachStep Call.Exchangeable (calls.map fun c => (c, σ c.path)) s t := by
  induction calls generalizing s t with
  | nil => trivial
  | cons c calls ih =>
    obtain ⟨hpath, hrest⟩ := List.forall_mem_cons.1 hpaths
    exact ⟨h.exchangeable hpath, ih (h.step hσ hpath) hrest⟩

end Spelled

/-! A folder besides an artifact, and the way to the artifact through the folder. -/

namespace Sparse

def detour : Path := Path.ofText "d/../App.py"

def forcer : Builder := { builder with settings := { forceRebuild := true } }

def beginning : Session :=
  { session with files :=
      { folders := [["d"]]
        files := [(["App.py"], Text.encodeUtf8 "__generator_version__ = \"1\"\n")] } }

theorem detour_oneFile : beginning.files.OneFile place detour := by
  have hplaces : beginning.files.locate place = .ok ["App.py"] ∧
      beginning.files.locate detour = .ok ["App.py"] ∧
        beginning.files.isFolderAt ["App.py"] = false := by decide +kernel
  exact oneFile_of_locate hplaces.1 hplaces.2.1 hplaces.2.2

def load : Call := ⟨builder, [], place⟩

def renew : Call := ⟨forcer, [], place⟩

/-- A run that goes the other way throughout ends alike at every step. -/
theorem detour_alike : EachStep Call.EndsAlike [(load, detour), (renew, detour), (load, detour)] beginning
    beginning := by
  have htwin : Twin beginning beginning := ⟨rfl, rfl, rfl, rfl, rfl, rfl⟩
  have hspelled : Spelled (fun _ => detour) (· = place) beginning beginning := { htwin with
    oneFile := by
      rintro _ rfl
      exact detour_oneFile
    locks := by
      rintro _ rfl
      exact Iff.intro nofun nofun
    entry := fun _ _ => rfl }
  have hone (p q : Path) (hp : p = place) (hq : q = place) (_ : detour = detour) : p = q := hp.trans hq.symm
  have hpaths : ∀ c ∈ [load, renew, load], c.path = place := by simp [load, renew]
  exact respelled_run _ htwin (hspelled.run [load, renew, load] hone hpaths)

/-- A run that goes the other way only when it makes the module anew answers at its next step with the module
that was loaded first, which was made from another source. -/
theorem detour_unlike : beginning.files.OneFile place detour ∧ beginning.files.locked = [] ∧
    ∃ result result' s' t', load.run.run (renew.after (load.after beginning)) = (.ok result, s') ∧
      load.run.run ((renew.respelled detour).after (load.after beginning)) = (.ok result', t') ∧
        result.state = .reused ∧ result'.state = .reused ∧
          ∀ source, Executed s' result.module source → ¬ Executed t' result'.module source := by
  have hfacts : ((load.run.run (renew.after (load.after beginning))).1.toOption.map fun result =>
        (result.state, result.module.number)) = some (.reused, 2) ∧
      ((load.run.run ((renew.respelled detour).after (load.after beginning))).1.toOption.map
        fun result => (result.state, result.module.number)) = some (.reused, 1) ∧
      (load.run.run (renew.after (load.after beginning))).2.sources[1]? ≠
        (load.run.run ((renew.respelled detour).after (load.after beginning))).2.sources[0]? := by
    decide +kernel
  obtain ⟨hdirect, hturned, hsources⟩ := hfacts
  rcases h : load.run.run (renew.after (load.after beginning)) with ⟨e | result, s'⟩ <;>
    rw [h] at hdirect hsources
  · cases hdirect
  rcases h' : load.run.run ((renew.respelled detour).after (load.after beginning)) with ⟨e | result', t'⟩ <;>
    rw [h'] at hturned hsources
  · cases hturned
  obtain ⟨hstate, hnumber⟩ := Prod.mk.inj (Option.some.inj hdirect)
  obtain ⟨hstate', hnumber'⟩ := Prod.mk.inj (Option.some.inj hturned)
  refine ⟨detour_oneFile, rfl, result, result', s', t', rfl, rfl, hstate, hstate', ?_⟩
  rintro source ⟨-, hsource, -⟩ ⟨-, hsource', -⟩
  rw [hnumber] at hsource
  rw [hnumber'] at hsource'
  exact hsources (hsource.trans hsource'.symm)

end Sparse

end ModelContracts
