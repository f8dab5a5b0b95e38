import ModelContracts.Proofs.Build.Coherence
import ModelContracts.Proofs.Execution.Numbers
import ModelContracts.Proofs.Source.Binding
import ModelContracts.Proofs.Source.Stamped

/-!
Building again. A build that keeps files leaves its source at the path, with the version stamp, and
its module in the table of what was loaded. Builds for other files do not touch either, so the next
build for the path takes the same module from the table, whatever is asked for; and with an empty
table it loads the source, which makes the same contracts under a new number.
-/

namespace ModelContracts

open FileTree Building Session

namespace Session

variable {s s' : Session} {name other : String} {bound : Nat} {others : List String} {base : World}

/-- The classes in the world were declared by the sources that were executed, or before them. -/
def Numbered (s : Session) : Prop := s.world.Within s.sources.length

theorem Ran.length_le (h : Ran name s s') : s.sources.length ≤ s'.sources.length := by
  induction h with
  | quiet _ hsources => rw [hsources]
  | failed _ _ hsources | made _ _ _ hsources =>
    rw [hsources, List.length_append]
    exact Nat.le_add_right _ _
  | next _ _ ih ih' => exact Nat.le_trans ih ih'

theorem Ran.numbered (h : Ran name s s') (hs : s.Numbered) : s'.Numbered := by
  induction h with
  | quiet hworld hsources =>
    unfold Numbered
    rwa [hworld, hsources]
  | failed _ hworld hsources =>
    unfold Numbered
    rw [hworld, hsources, List.length_append]
    exact hs.mono (Nat.le_add_right _ _)
  | made _ _ houtcome hsources =>
    unfold Numbered
    rw [hsources, List.length_append]
    exact World.within_outcome hs (Nat.lt_succ_self _) houtcome
  | next _ _ ih ih' => exact ih' (ih hs)

theorem Ran.same (h : Ran other s s') (hother : other = name ∨ other ∈ others)
    (hbound : bound ≤ s.sources.length) (hsame : World.Same others name bound base s.world) :
    World.Same others name bound base s'.world := by
  induction h with
  | quiet hworld | failed _ hworld => rwa [hworld]
  | made _ _ houtcome => exact hsame.outcome hother (Nat.lt_succ_of_le hbound) houtcome
  | next hbefore _ ih ih' => exact ih' (Nat.le_trans hbound hbefore.length_le) (ih hbound hsame)

/-- No file is changed and no source executed. -/
structure Idles (s s' : Session) : Prop where
  files : s'.files = s.files
  world : s'.world = s.world
  sources : s'.sources = s.sources
  compiles : s'.compiles = s.compiles
  loads : s'.loads = s.loads

theorem Idles.trans {s'' : Session} (h : Idles s s') (h' : Idles s' s'') : Idles s s'' where
  files := h'.files.trans h.files
  world := h'.world.trans h.world
  sources := h'.sources.trans h.sources
  compiles := h'.compiles.trans h.compiles
  loads := h'.loads.trans h.loads

end Session

namespace Compilation

variable {path : Path} {s : Session} {m : Module} {source name : String}

theorem check_well_formed {statements : List Statement}
    (h : Statement.ofSource source = .ok statements) (s : Session) :
    (check source [] path).run s = (.ok ⟨⟩, s) := by
  have hreferences : unresolvedReferences s.world [] path = [] := rfl
  have hsyntax : syntaxDiagnostics source path = [] := by rw [syntaxDiagnostics, h]
  unfold check
  rw [run_bind_of_ok (run_get _), hreferences, hsyntax]
  rfl

/-- A file with a source that makes a module is loaded. -/
theorem load_ok {data : List UInt8} {statements : List Statement} {w : World}
    (hread : s.files.read? path = .ok data) (htext : fileText data = some source)
    (hsource : Statement.ofSource source = .ok statements) (hloader : loader path = .source)
    (houtcome : outcome s.world (s.sources.length + 1) source name = .ok (w, m)) :
    ∃ log, (load path name).run s = (.ok m, { s with
      loads := s.loads + 1, sources := s.sources ++ [source], world := w, log := log }) := by
  refine ⟨s.log ++ [.compile ("Loaded " ++ name ++ " from " ++ "disk")], ?_⟩
  have hchecked : (checkLoader source path).run { s with loads := s.loads + 1 } =
      (.ok ⟨⟩, { s with loads := s.loads + 1 }) := by
    rw [checkLoader, hloader]
    rfl
  unfold load
  rw [run_bind_of_ok (run_modify _ _), run_bind_of_ok (run_get _)]
  dsimp only
  rw [hread]
  dsimp only
  rw [htext]
  dsimp only
  rw [run_bind_of_ok (check_well_formed hsource _), execute, if_pos rfl, run_bind_of_ok hchecked,
    runSource, run_bind_of_ok (run_get _)]
  dsimp only
  rw [houtcome]
  rfl

end Compilation

namespace Builder

variable (b : Builder) {path : Path} {name : String} {s : Session} {m : Module}

theorem lookFor_run (path : Path) (s : Session) : (lookFor path).run s =
    (.ok (s.files.isFile path), { s with cache := (s.cache.lookFor s.files path).2 }) := rfl

/-- An artifact that stands there in the right version is not cleaned up. -/
theorem cleanup_spares (hclean : ¬ (b.settings.cleanupEnabled = true ∧ b.settings.devMachine = true))
    (hmatch : Stamp.isMatch s.files path b.version = true) :
    ∃ presence, (b.cleanup path).run s =
      (.ok ⟨⟩, { s with cache := { s.cache with presence := presence } }) := by
  unfold cleanup
  split_ifs with hcleanup
  · have hdev : b.settings.devMachine = false := by simpa [hcleanup] using hclean
    rw [run_bind_of_ok (lookFor_run path s)]
    split_ifs with hfound
    · refine ⟨(s.cache.lookFor s.files path).2.presence, ?_⟩
      simp only [isMatch, bind_assoc, pure_bind, run_bind, run_get, hmatch, hdev]
      rfl
    · exact ⟨_, rfl⟩
  · exact ⟨_, rfl⟩

/-- An artifact that stands there in the right version is wanted. -/
theorem survey_wants (hruntime : b.settings.runtimeMode = true)
    (hclean : ¬ (b.settings.cleanupEnabled = true ∧ b.settings.devMachine = true))
    (hfile : s.files.isFile path = true) (hmatch : Stamp.isMatch s.files path b.version = true) :
    ∃ t, (b.survey path).run s = (.ok true, t) ∧ Idles s t ∧ t.cache.loaded = s.cache.loaded := by
  obtain ⟨presence, hcleanup⟩ := b.cleanup_spares hclean hmatch
  unfold survey
  rw [run_bind_of_ok hcleanup, run_bind_of_ok (lookFor_run _ _)]
  simp only [isMatch, report, bind_assoc, run_bind, run_get, run_pure, run_log, hfile, hmatch,
    hruntime, Bool.true_and, Bool.or_true]
  exact ⟨_, rfl, ⟨rfl, rfl, rfl, rfl, rfl⟩, rfl⟩

theorem loadArtifact_known (name : String) (hentry : s.cache.loaded? path = some m)
    (hversion : m.version? = some b.version) :
    (b.loadArtifact path name).run s = (.ok (some m), s) := by
  have hknown : (s.cache.loaded? path).filter (fun m => m.version? = some b.version) = some m := by
    rw [hentry, Option.filter_some, if_pos (decide_eq_true hversion)]
  unfold loadArtifact
  rw [run_bind_of_ok (run_get _), hknown]
  rfl

theorem loadArtifact_loads {t : Session}
    (hnone : ∀ n, s.cache.loaded? path = some n → n.version? ≠ some b.version)
    (hload : (Compilation.load path name).run s = (.ok m, t)) :
    (b.loadArtifact path name).run s =
      (.ok (some m), { t with cache := (t.cache.putLoaded path m).putModule name m }) := by
  have htry : (tryLoad path name).run s = (.ok (some m), t) := by
    rw [tryLoad, run_tryCatch, run_map, hload]
    rfl
  have hunknown : (s.cache.loaded? path).filter (fun m => m.version? = some b.version) = none :=
    Option.filter_eq_none_iff.2 fun n hn hversion => hnone n hn (of_decide_eq_true hversion)
  unfold loadArtifact
  rw [run_bind_of_ok (run_get _), hunknown]
  exact run_bind_of_ok htry

/-- The module of the artifact is the answer, whatever is asked for. -/
theorem build_of_disk {t u : Session} (hforce : b.settings.forceRebuild = false)
    (hsurvey : (b.survey path).run (takeOff path s) = (.ok true, t))
    (hload : (b.loadArtifact path (Artifact.moduleName path)).run t = (.ok (some m), u))
    (components : List Component) :
    ∃ s', (b.build components path).run s = (.ok (BuildResult.fromCache m path), s') ∧
      Idles u s' := by
  have hdisk : b.fromDisk path (Artifact.moduleName path) true =
      b.loadArtifact path (Artifact.moduleName path) := by
    rw [fromDisk, hforce]
    rfl
  have hrun : (b.run components path).run (takeOff path s) =
      (.ok (BuildResult.fromCache m path), { u with log := u.log ++ [reused path "disk"] }) := by
    unfold run reuse
    simp only [run_bind, hsurvey, hdisk, hload, run_log, run_pure]
  rw [build_eq, hrun]
  exact ⟨_, rfl, rfl, rfl, rfl, rfl, rfl⟩

/-- The table has a module of the version for a path, and the file there has the stamp. -/
structure Ready (path : Path) (m : Module) (s : Session) : Prop where
  entry : s.cache.loaded? path = some m
  version : m.version? = some b.version
  file : ∃ data, s.files.read? path = .ok data ∧ Stamp.ofData? data = some b.version

variable {b} in
theorem isMatch_of_read {data : List UInt8} (hread : s.files.read? path = .ok data)
    (hstamp : Stamp.ofData? data = some b.version) :
    Stamp.isMatch s.files path b.version = true := by
  unfold Stamp.isMatch Stamp.ofFile?
  rw [hread]
  exact decide_eq_true hstamp

variable {b} in
/-- The next build answers with the module in the table. -/
theorem Ready.rebuild (h : b.Ready path m s) (hruntime : b.settings.runtimeMode = true)
    (hforce : b.settings.forceRebuild = false)
    (hclean : ¬ (b.settings.cleanupEnabled = true ∧ b.settings.devMachine = true))
    (components : List Component) :
    ∃ s', (b.build components path).run s = (.ok (BuildResult.fromCache m path), s') ∧
      Idles s s' := by
  obtain ⟨data, hread, hstamp⟩ := h.file
  obtain ⟨t, hsurvey, hidles, hloaded⟩ := b.survey_wants hruntime hclean
    (s := takeOff path s) (isFile_of_read? hread) (isMatch_of_read hread hstamp)
  have hentry : t.cache.loaded? path = some m := by
    rw [BuildCache.loaded?, hloaded]
    exact h.entry
  obtain ⟨s', hbuild, hrest⟩ := b.build_of_disk hforce hsurvey
    (b.loadArtifact_known (Artifact.moduleName path) hentry h.version) components
  exact ⟨s', hbuild, Idles.trans { hidles with } hrest⟩

end Builder

namespace Session

/-- Builds for other files, one after the other, by any builders and with any outcome. The paths are
told for which they were. -/
inductive Meanwhile (path : Path) : List Path → Session → Session → Prop
  | nothing (s : Session) : Meanwhile path [] s s
  | build {built : List Path} {s t : Session} (h : Meanwhile path built s t) (b : Builder)
      (components : List Component) {other : Path}
      (hother : t.files.resolve other ≠ t.files.resolve path) :
      Meanwhile path (other :: built) s ((b.build components other).run t).2

variable {path : Path} {built : List Path} {s s' : Session} {name : String} {bound : Nat}
  {others : List String} {base : World} {data : List UInt8}

theorem Meanwhile.read (h : Meanwhile path built s s') (hread : s.files.read? path = .ok data) :
    s'.files.read? path = .ok data := by
  induction h with
  | nothing => exact hread
  | build _ b components hother ih =>
    exact (b.build_touches components _ _).files.read (ih hread) hother.symm

theorem Meanwhile.loaded (h : Meanwhile path built s s') :
    s'.cache.loaded? path = s.cache.loaded? path := by
  induction h with
  | nothing => rfl
  | @build _ _ t _ b components other hother ih =>
    have hne : path ≠ other := fun heq => hother (heq ▸ rfl)
    rw [(b.build_frame components other t).others path hne, ih]

theorem Meanwhile.length_le (h : Meanwhile path built s s') :
    s.sources.length ≤ s'.sources.length := by
  induction h with
  | nothing => exact Nat.le_refl _
  | build _ b components _ ih =>
    exact Nat.le_trans ih (b.build_touches components _ _).ran.length_le

theorem Meanwhile.numbered (h : Meanwhile path built s s') (hs : s.Numbered) : s'.Numbered := by
  induction h with
  | nothing => exact hs
  | build _ b components _ ih => exact (b.build_touches components _ _).ran.numbered (ih hs)

/-- Builds leave the world the same, but for their own modules. -/
theorem Meanwhile.same (h : Meanwhile path built s s')
    (hothers : ∀ p ∈ built, Artifact.moduleName p ∈ others) (hbound : bound ≤ s.sources.length)
    (hsame : World.Same others name bound base s.world) :
    World.Same others name bound base s'.world := by
  induction h with
  | nothing => exact hsame
  | build hbefore b components _ ih =>
    obtain ⟨hother, hothers⟩ := List.forall_mem_cons.1 hothers
    exact (b.build_touches components _ _).ran.same (Or.inr hother)
      (Nat.le_trans hbound hbefore.length_le) (ih hothers hbound hsame)

end Session

namespace Builder

variable {b : Builder} {path : Path} {s s' : Session} {m : Module}

theorem Ready.meanwhile {built : List Path} (h : b.Ready path m s)
    (hbuilds : Meanwhile path built s s') : b.Ready path m s' where
  entry := hbuilds.loaded.trans h.entry
  version := h.version
  file := by
    obtain ⟨data, hread, hstamp⟩ := h.file
    exact ⟨data, hbuilds.read hread, hstamp⟩

theorem synthesize_version {synthesizer : Synthesizer} {components : List Component} {d d' : Draft}
    {plan : Blueprint} (h : (synthesizer.synthesize components).run d = (.ok plan, d')) :
    plan.version = synthesizer.version := by
  obtain ⟨_, d₁, -, h₁⟩ := run_bind_ok h
  obtain ⟨annotated, d₂, -, h₂⟩ := run_bind_ok h₁
  cases h₂
  rfl

theorem mapError_ok {ε ε' α : Type} {f : ε → ε'} {x : Except ε α} {a : α}
    (h : x.mapError f = .ok a) : x = .ok a := by
  cases x <;> cases h
  rfl

theorem derive_version {components : List Component} {plan : Blueprint}
    (h : (b.derive components path).run s = (.ok plan, s')) : plan.version = b.version := by
  unfold derive at h
  rw [run_bind_of_ok (run_get _)] at h
  have hsynthesized := mapError_ok (congrArg Prod.fst h)
  exact synthesize_version (Prod.ext hsynthesized rfl)

/-- What a build has done that compiled a module: the module was made from the source of the artifact,
which can be read from its path, and is in the table; if the build keeps files. -/
structure Compiles (b : Builder) (path : Path) (m : Module) (plan : Blueprint)
    (s s' : Session) : Prop where
  version : plan.version = b.version
  born : Born plan.source (Artifact.moduleName path) m s s'
  loader : Compilation.loader path = .source
  read : s'.files.read? path = .ok (Text.encodeUtf8 plan.source)
  entry : s'.cache.loaded? path = some m

theorem build_compiles {components : List Component} {result : BuildResult Module}
    (hruntime : b.settings.runtimeMode = true)
    (h : (b.build components path).run s = (.ok result, s')) (hstate : result.state = .compiled) :
    ∃ plan, (∃ info ∈ result.artifact, info.source = plan.source) ∧
      b.Compiles path result.module plan s s' := by
  obtain ⟨t, rfl, ⟨m, -, rfl⟩ | ⟨s₁, hreuse, hrest⟩⟩ := b.build_ok path h
  · cases hstate
  · have hundone := b.reuse_undone path hreuse (by simp)
    obtain ⟨-, plan, s₂, s₃, s₄, hartifact, hderive, hbefore, hcompile, hrecords⟩ :=
      b.compile_ok hrest
    obtain ⟨hframe, hcache, hborn, hmade⟩ := Compilation.compile_made hcompile
    rw [if_pos hruntime] at hmade
    have hstart : Undone path s s₃ := ((takeOff_undone path s).trans hundone).trans hbefore
    refine ⟨plan, ⟨_, hartifact, rfl⟩, ?_⟩
    constructor
    case version => exact derive_version hderive
    case born =>
      exact (hborn.after hstart.world hstart.sources).before hrecords.world hrecords.sources
    case loader => exact hmade.1
    case read =>
      show t.files.read? path = _
      rw [hrecords.files]
      exact hmade.2
    case entry => exact (hrecords.loaded path).trans (if_pos ⟨hruntime, rfl⟩)

theorem Compiles.ready {plan : Blueprint} (h : b.Compiles path m plan s s')
    (hstamp : Stamp.ReadsBack b.version) (hrebinds : ¬ Statement.Rebinds plan.source) :
    b.Ready path m s' where
  entry := h.entry
  version := by
    obtain ⟨statements, _, hsource, -⟩ := Compilation.outcome_ok h.born.outcome
    rw [← h.version]
    exact Compilation.outcome_version h.born.outcome
      (Statement.setsVersion_source hsource hrebinds)
  file := by
    rw [← h.version] at hstamp ⊢
    exact ⟨_, h.read, hstamp.ofData?⟩

end Builder

namespace Session

/-- A module was made a second time: by the same statements, and with the same meaning of every name,
the same ancestors and the same markers, but for the numbers of its own classes. -/
def Repeats (s s' : Session) (m m' : Module) : Prop :=
  (∃ ρ : Renumbering, ρ.module = m.name ∧ ρ.first = m.number ∧ ρ.second = m'.number ∧
    ρ.Copies s.world s'.world m m') ∧
  ∃ source source', Executed s m source ∧ Executed s' m' source' ∧
    Statement.ofSource source' = Statement.ofSource source

/-- A source was compiled for a path; now nothing of a version is in the table for the path, the file
is as it was written, and the world is the same, as far as the source can reach. Only modules that it
does not touch may differ, and classes with numbers beyond a bound. -/
structure Afresh (path : Path) (version source : String) (others : List String) (bound : Nat)
    (s s' t : Session) : Prop where
  table : ∀ m, t.cache.loaded? path = some m → m.version? ≠ some version
  file : t.files.read? path = s'.files.read? path
  numbered : s.Numbered
  numbered' : t.Numbered
  bound_le : bound ≤ s.sources.length
  bound_le' : bound ≤ t.sources.length
  same : World.Same others (Artifact.moduleName path) bound s.world t.world
  apart : ∀ statements, Statement.ofSource source = .ok statements →
    s.world.Apart others (Artifact.moduleName path) bound statements

end Session

namespace Builder

variable {b : Builder} {path : Path} {s s' t : Session} {m : Module} {plan : Blueprint}

theorem ofSource_unixLines (source : String) :
    Statement.ofSource (String.ofList (Text.unixLines source.toList)) =
      Statement.ofSource source := by
  rw [Statement.ofSource, String.toList_ofList, Text.unixLines_unixLines, Statement.ofSource]

/-- The next build loads the source, and makes the module again. -/
theorem Compiles.reload {others : List String} {bound : Nat} (h : b.Compiles path m plan s s')
    (hruntime : b.settings.runtimeMode = true) (hforce : b.settings.forceRebuild = false)
    (hclean : ¬ (b.settings.cleanupEnabled = true ∧ b.settings.devMachine = true))
    (hstamp : Stamp.ReadsBack b.version)
    (hafresh : Afresh path b.version plan.source others bound s s' t) (components : List Component) :
    ∃ m' t', (b.build components path).run t = (.ok (BuildResult.fromCache m' path), t') ∧
      m'.number = t.sources.length + 1 ∧ t'.loads = t.loads + 1 ∧ t'.compiles = t.compiles ∧
        t'.files = t.files ∧ Repeats s' t' m m' := by
  have hread : t.files.read? path = .ok (Text.encodeUtf8 plan.source) := hafresh.file.trans h.read
  obtain ⟨t₁, hsurvey, hidles, hloaded⟩ := b.survey_wants hruntime hclean
    (s := takeOff path t) (isFile_of_read? hread)
    (isMatch_of_read hread (by rw [← h.version] at hstamp ⊢; exact hstamp.ofData?))
  obtain ⟨statements, _, hsource, -⟩ := Compilation.outcome_ok h.born.outcome
  have hfresh := h.born.fresh
  have hname := Compilation.outcome_name h.born.outcome
  have hapart := hafresh.apart statements hsource
  let ρ : Renumbering :=
    { module := Artifact.moduleName path, first := m.number, second := t.sources.length + 1
      bound := bound, others := others, undotted := hapart.undotted, builtins := hapart.builtins
      bound_lt_first := Nat.lt_of_le_of_lt hafresh.bound_le hfresh
      bound_lt_second := Nat.lt_succ_of_le hafresh.bound_le' }
  have hfirst : Compilation.outcome s.world ρ.first plan.source ρ.module = .ok (s'.world, m) :=
    h.born.outcome
  have hagain := (ofSource_unixLines plan.source).trans hsource
  obtain ⟨v, m', hsecond, hcopies⟩ := Compilation.outcome_again hfirst hsource hagain
    hafresh.numbered hfresh hafresh.numbered' (Nat.lt_succ_self _) hafresh.same hapart
  have hworld : t₁.world = t.world := hidles.world
  have hsources : t₁.sources = t.sources := hidles.sources
  have hread₁ : t₁.files.read? path = .ok (Text.encodeUtf8 plan.source) := by
    rw [hidles.files]
    exact hread
  have hnone : ∀ n, t₁.cache.loaded? path = some n → n.version? ≠ some b.version := by
    rw [BuildCache.loaded?, hloaded]
    exact hafresh.table
  obtain ⟨log, hload⟩ := Compilation.load_ok hread₁ (fileText_encodeUtf8 plan.source) hagain h.loader
    (by rw [hworld, hsources]; exact hsecond)
  obtain ⟨t', hbuild, hrest⟩ := b.build_of_disk hforce hsurvey (b.loadArtifact_loads hnone hload)
    components
  have hnumber : m'.number = t.sources.length + 1 := Compilation.outcome_number hsecond
  have hexecuted : Executed t' m' (String.ofList (Text.unixLines plan.source.toList)) := by
    refine ⟨by omega, ?_, t.world, v, ρ.module, ?_⟩
    · rw [hrest.sources, hnumber, hsources]
      simp
    · rw [hnumber]
      exact hsecond
  refine ⟨m', t', hbuild, hnumber, ?_, ?_, ?_, ⟨ρ, hname.symm, rfl, hnumber.symm, ?_⟩,
    plan.source, _, h.born.executed, hexecuted, hagain.trans hsource.symm⟩
  · rw [hrest.loads, ← show t₁.loads = t.loads from hidles.loads]
  · rw [hrest.compiles, ← show t₁.compiles = t.compiles from hidles.compiles]
  · rw [hrest.files, ← show t₁.files = t.files from hidles.files]
  · rw [hrest.world]
    exact hcopies

/-- After builds for other files, of which the source touches no module, only the table can keep the
source from being loaded. -/
theorem Compiles.afresh {built : List Path} {t' : Session} (h : b.Compiles path m plan s s')
    (hs : s.Numbered) (hbuilds : Meanwhile path built s' t) (hidles : Idles t t')
    (htable : ∀ n, t'.cache.loaded? path = some n → n.version? ≠ some b.version)
    (hapart : ∀ statements, Statement.ofSource plan.source = .ok statements →
      s.world.Apart (built.map Artifact.moduleName) (Artifact.moduleName path) s.sources.length
        statements) :
    Afresh path b.version plan.source (built.map Artifact.moduleName) s.sources.length s s' t' := by
  have hfresh := h.born.fresh
  have hgrown : s.sources.length ≤ s'.sources.length := by
    rw [← h.born.number]
    exact Nat.le_of_lt hfresh
  have hnumbered : s'.Numbered := by
    unfold Numbered
    rw [← h.born.number]
    exact World.within_outcome hs hfresh h.born.outcome
  have hsame : World.Same (built.map Artifact.moduleName) (Artifact.moduleName path)
      s.sources.length s.world s'.world :=
    (World.Same.refl ..).outcome (Or.inl rfl) hfresh h.born.outcome
  constructor
  case table => exact htable
  case file => rw [hidles.files, hbuilds.read h.read, h.read]
  case numbered => exact hs
  case numbered' =>
    unfold Numbered
    rw [hidles.world, hidles.sources]
    exact hbuilds.numbered hnumbered
  case bound_le => exact Nat.le_refl _
  case bound_le' =>
    rw [hidles.sources]
    exact Nat.le_trans hgrown hbuilds.length_le
  case same =>
    rw [hidles.world]
    exact hbuilds.same (fun p hp => List.mem_map_of_mem hp) hgrown hsame
  case apart => exact hapart

/-- So it is in the state before the build, with the file that the build wrote and nothing in the
table. -/
theorem afresh_before (path : Path) (version source : String) (hs : s.Numbered) (s' : Session) :
    Afresh path version source [] s.sources.length s s'
      { s with files := s'.files, cache := s.cache.clear } where
  table := nofun
  file := rfl
  numbered := hs
  numbered' := hs
  bound_le := Nat.le_refl _
  bound_le' := Nat.le_refl _
  same := .refl ..
  apart statements _ := World.Within.apart hs (Artifact.moduleName path) statements

/-- After a build that keeps files has compiled a module, and whatever builds there were for other
files, the next build answers with the same module and does nothing else, unless the source gives the
name of the version another meaning; and from an empty cache it loads the source again, which makes the
same contracts. -/
theorem compiled_reused {b : Builder} {components : List Component} {path : Path} {s s' : Session}
    {result : BuildResult Module} (hruntime : b.settings.runtimeMode = true)
    (hforce : b.settings.forceRebuild = false)
    (hclean : ¬ (b.settings.cleanupEnabled = true ∧ b.settings.devMachine = true))
    (hstamp : Stamp.ReadsBack b.version)
    (hbuild : (b.build components path).run s = (.ok result, s'))
    (hstate : result.state = .compiled) :
    ∃ info, result.artifact = some info ∧
      (¬ Statement.Rebinds info.source →
        ∀ built t, Meanwhile path built s' t → ∀ requests, ∃ answer t',
          (b.build requests path).run t = (.ok answer, t') ∧ answer.state = .reused ∧
            answer.module = result.module ∧ Idles t t') ∧
      ∀ others bound t, Afresh path b.version info.source others bound s s' t →
        ∀ requests, ∃ answer t',
        (b.build requests path).run t = (.ok answer, t') ∧ answer.state = .reused ∧
          t'.loads = t.loads + 1 ∧ t'.compiles = t.compiles ∧ t'.files = t.files ∧
            Repeats s' t' result.module answer.module := by
  obtain ⟨plan, ⟨info, hinfo, hsource⟩, hcompiles⟩ := build_compiles hruntime hbuild hstate
  refine ⟨info, hinfo, fun hrebinds built t hbuilds requests => ?_,
    fun others bound t hafresh requests => ?_⟩
  · rw [hsource] at hrebinds
    have hready := (hcompiles.ready hstamp hrebinds).meanwhile hbuilds
    obtain ⟨t', hagain, hidles⟩ := hready.rebuild hruntime hforce hclean requests
    exact ⟨_, t', hagain, rfl, rfl, hidles⟩
  · rw [hsource] at hafresh
    obtain ⟨m', t', hagain, -, hdone⟩ := hcompiles.reload hruntime hforce hclean hstamp hafresh requests
    exact ⟨_, t', hagain, rfl, hdone⟩

end Builder

/-! A world with one class of which a contract can be derived, and one that is named like the
version. -/

namespace Sparse

def model : ClassId := ⟨"app", "A", 0⟩

def namesake : ClassId := ⟨"app", "__generator_version__", 0⟩

def session : Session where
  world :=
    { classes := [{ id := model, lineage := [model, ClassId.object] }]
      modules := [
        { name := "app", attributes := [("A", .cls model), (namesake.qualName, .cls namesake)] },
        { name := "modelgen.contracts"
          attributes := [("ModelNode", .cls ClassId.modelNode),
            ("ModelNodeEnabled", .cls ClassId.modelNodeEnabled)] },
        { name := "modelgen.markers", attributes := [("ClassName", .cls MarkerShape.className.kind)] },
        { name := "typing", attributes := [("Annotated", .other)] }] }

def builder : Builder := { version := "1" }

def place : Path := Path.ofText "App.py"

theorem session_numbered : session.Numbered :=
  World.within_of_forall (by decide) (by decide) (by decide) (by decide)

theorem version_readsBack : Stamp.ReadsBack builder.version := by
  unfold Stamp.ReadsBack
  decide +kernel

def component : Component := { type := model }

def elsewhere : Path := Path.ofText "b/Other.py"

/-- A module is answered with again after a build for another file, and it is loaded again when the
cache is empty. -/
theorem compiled_again : ∃ result s',
    (builder.build [] place).run session = (.ok result, s') ∧ result.state = .compiled ∧
      (∃ answer t', (builder.build [component] place).run
        ((builder.build [component] elsewhere).run s').2 = (.ok answer, t') ∧
          answer.state = .reused ∧ answer.module = result.module) ∧
      ∃ answer t', (builder.build [component] place).run { s' with cache := s'.cache.clear } =
        (.ok answer, t') ∧ answer.state = .reused ∧ t'.loads = s'.loads + 1 ∧
          Repeats s' t' result.module answer.module := by
  have hresult : ((builder.build [] place).run session).1.toOption.map (fun result =>
      (result.state, result.artifact.map fun info =>
        (Statement.later info.source).any fun s => versionName ∈ s.binds)) =
        some (.compiled, some false) := by decide +kernel
  have hhome := (builder.build_frame [] place session).home
  rcases h : (builder.build [] place).run session with ⟨e | result, s'⟩
  · rw [h] at hresult
    cases hresult
  rw [h] at hresult hhome
  obtain ⟨hstate, hbinds⟩ := Prod.mk.inj (Option.some.inj hresult)
  obtain ⟨info, hinfo, hreused, hloaded⟩ :=
    Builder.compiled_reused rfl rfl (by decide) version_readsBack h hstate
  obtain ⟨plan, ⟨info', hinfo', hsource⟩, hcompiles⟩ := Builder.build_compiles rfl h hstate
  obtain rfl : info' = info := Option.some.inj (hinfo'.symm.trans hinfo)
  have hrebinds : ¬ Statement.Rebinds info'.source := by
    rw [hinfo] at hbinds
    simpa [Statement.Rebinds] using hbinds
  have hother : s'.files.resolve elsewhere ≠ s'.files.resolve place := by
    rw [resolve_of_home hhome, resolve_of_home hhome]
    decide
  have hcleared : Idles s' { s' with cache := s'.cache.clear } := ⟨rfl, rfl, rfl, rfl, rfl⟩
  have hafresh := hcompiles.afresh session_numbered (.nothing s') hcleared nofun
    fun statements _ => World.Within.apart session_numbered _ statements
  rw [← hsource] at hafresh
  obtain ⟨answer, t', hagain, hstate', hmodule, -⟩ := hreused hrebinds _ _
    (.build (.nothing s') builder [component] hother) [component]
  obtain ⟨answer', t'', hagain', hstate'', hloads, -, -, hrepeats⟩ :=
    hloaded _ _ _ hafresh [component]
  exact ⟨result, s', rfl, hstate, ⟨answer, t', hagain, hstate', hmodule⟩, answer', t'', hagain',
    hstate'', hloads, hrepeats⟩

def rebinding : Component := { component with referenceTypes := [.cls namesake] }

/-- The class that is named like the version takes its place in the module, and the next build answers
with another module, though the stamp is read back. -/
theorem namesake_not_reused : Stamp.ReadsBack builder.version ∧ ∃ result s' answer t',
    (builder.build [rebinding] place).run session = (.ok result, s') ∧ result.state = .compiled ∧
      (builder.build [component] place).run s' = (.ok answer, t') ∧
        answer.module ≠ result.module ∧ t'.loads = s'.loads + 1 := by
  have hresult : ((builder.build [rebinding] place).run session).1.toOption.map (fun result =>
      (result.state, result.module.version?)) = some (.compiled, none) := by decide +kernel
  rcases h : (builder.build [rebinding] place).run session with ⟨e | result, s'⟩
  · rw [h] at hresult
    cases hresult
  rw [h] at hresult
  obtain ⟨hstate, hversion⟩ := Prod.mk.inj (Option.some.inj hresult)
  obtain ⟨plan, -, hcompiles⟩ := Builder.build_compiles rfl h hstate
  have hidles : Idles s' s' := ⟨rfl, rfl, rfl, rfl, rfl⟩
  have htable : ∀ m, s'.cache.loaded? place = some m → m.version? ≠ some builder.version := by
    intro m hm
    rw [hcompiles.entry] at hm
    cases hm
    rw [hversion]
    exact nofun
  have hafresh := hcompiles.afresh session_numbered (.nothing s') hidles htable
    fun statements _ => World.Within.apart session_numbered _ statements
  obtain ⟨m', t', hagain, hnumber, hloads, -⟩ :=
    hcompiles.reload rfl rfl (by decide) version_readsBack hafresh [component]
  have hborn := hcompiles.born.number
  refine ⟨version_readsBack, result, s', _, t', rfl, hstate, hagain, fun hsame => ?_, hloads⟩
  have hnumbers : m'.number = result.module.number := congrArg Module.number hsame
  omega

end Sparse

end ModelContracts
