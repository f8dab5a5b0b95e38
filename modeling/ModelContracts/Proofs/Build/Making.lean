import ModelContracts.Proofs.Build.Failing
import ModelContracts.Proofs.Execution.Growth

/-!
Builds that make a module. Modules are numbered in the order in which their sources were executed, so
every module tells the source that it was made from. A build keeps what its path stands for, renews
it, or leaves the source of a failure there.
-/

namespace ModelContracts

open FileTree Building Session

namespace Session

/-- The module is what the execution of a source made, the one that its number tells. -/
def Executed (s : Session) (m : Module) (source : String) : Prop :=
  0 < m.number ∧ s.sources[m.number - 1]? = some source ∧
    ∃ w w' name, Compilation.outcome w m.number source name = .ok (w', m)

variable {s s' : Session} {m : Module} {source : String}

theorem Executed.mono (h : Executed s m source) (hgrown : s.sources <+: s'.sources) :
    Executed s' m source := by
  obtain ⟨hpos, hsource, hmade⟩ := h
  obtain ⟨rest, hrest⟩ := hgrown
  refine ⟨hpos, ?_, hmade⟩
  rw [← hrest, List.getElem?_append_left (List.getElem?_eq_some_iff.1 hsource).1]
  exact hsource

/-- A source became a module, the source that was executed last. -/
structure Born (source moduleName : String) (m : Module) (s s' : Session) : Prop where
  number : m.number = s'.sources.length
  fresh : s.sources.length < m.number
  last : s'.sources.getLast? = some source
  outcome : Compilation.outcome s.world m.number source moduleName = .ok (s'.world, m)

theorem Born.executed {moduleName : String} (h : Born source moduleName m s s') :
    Executed s' m source := by
  have hfresh := h.fresh
  refine ⟨by omega, ?_, s.world, s'.world, moduleName, h.outcome⟩
  rw [h.number, ← List.getLast?_eq_getElem?]
  exact h.last

/-- The source became a module also for one who looked on earlier, from the same world. -/
theorem Born.after {moduleName : String} {s₁ : Session} (h : Born source moduleName m s₁ s')
    (hworld : s₁.world = s.world) (hsources : s.sources <+: s₁.sources) :
    Born source moduleName m s s' where
  number := h.number
  fresh := Nat.lt_of_le_of_lt hsources.length_le h.fresh
  last := h.last
  outcome := hworld ▸ h.outcome

/-- The source became a module also for one who looks on later, at the same world. -/
theorem Born.before {moduleName : String} {s₁ : Session} (h : Born source moduleName m s s₁)
    (hworld : s'.world = s₁.world) (hsources : s'.sources = s₁.sources) :
    Born source moduleName m s s' where
  number := by rw [hsources, h.number]
  fresh := h.fresh
  last := by rw [hsources, h.last]
  outcome := by rw [hworld, h.outcome]

/-- A source became a module, and the files and the cache are as before. -/
structure Made (source moduleName : String) (m : Module) (s s' : Session) : Prop
    extends Born source moduleName m s s' where
  files : s'.files = s.files
  cache : s'.cache = s.cache
  sources : s.sources <+: s'.sources

theorem Made.frame {moduleName : String} (h : Made source moduleName m s s') (path : Path) :
    Frame path s s' where
  home := by rw [h.files]
  locked := by rw [h.files]
  sources := h.sources
  files _ _ := by rw [h.files]
  others _ _ := by rw [h.cache]

end Session

namespace Compilation

variable {path : Path} {s s' : Session} {m : Module} {source moduleName : String}

theorem outcome_number {w w' : World} {number : Nat}
    (h : outcome w number source moduleName = .ok (w', m)) : m.number = number := by
  unfold outcome at h
  split at h
  · cases h
  · dsimp only at h
    split at h
    · cases h
    next hrun =>
      cases h
      exact (Execution.runAll_grows hrun).number

theorem runSource_made {origin : String}
    (h : (runSource source path moduleName origin).run s = (.ok m, s')) :
    Made source moduleName m s s' := by
  obtain ⟨w, log, houtcome, rfl⟩ := runSource_ok h
  have hnumber := outcome_number houtcome
  exact {
    number := by simp [hnumber]
    fresh := by omega
    last := List.getLast?_concat
    outcome := by rwa [hnumber]
    files := rfl
    cache := rfl
    sources := List.prefix_append _ _ }

theorem execute_made {fromFile : Bool}
    (h : (execute source path moduleName fromFile).run s = (.ok m, s')) :
    (fromFile = true → loader path = .source) ∧ Made source moduleName m s s' := by
  unfold execute at h
  split_ifs at h with hfile
  · obtain ⟨_, s₁, hcheck, hrun⟩ := run_bind_ok h
    obtain ⟨rfl, hloader⟩ := checkLoader_ok hcheck
    exact ⟨fun _ => hloader, runSource_made hrun⟩
  · exact ⟨fun hf => (hfile hf).elim, runSource_made h⟩

theorem load_made (h : (load path moduleName).run s = (.ok m, s')) :
    loader path = .source ∧ ∃ data source, s.files.file? (s.files.resolve path) = some data ∧
      fileText data = some source ∧ Made source moduleName m s s' := by
  unfold load at h
  rw [run_bind_of_ok (run_modify _ _), run_bind_of_ok (run_get _)] at h
  split at h
  · cases h
  next data hdata =>
    split at h
    · cases h
    next source hsource =>
      obtain ⟨_, s₁, hcheck, hexecute⟩ := run_bind_ok h
      obtain rfl := (check_keeps _ path).of_run hcheck
      obtain ⟨hloader, hmade⟩ := execute_made hexecute
      exact ⟨hloader rfl, data, source, file?_of_read? hdata, hsource, { hmade with }⟩

theorem executeOrDelete_made (h : (executeOrDelete source path moduleName).run s = (.ok m, s')) :
    loader path = .source ∧ Made source moduleName m s s' := by
  unfold executeOrDelete at h
  rw [run_tryCatch] at h
  rcases hexecute : (execute source path moduleName true).run s with ⟨e | m', s₁⟩
  · rw [hexecute] at h
    cases e with
    | compile f =>
      obtain ⟨_, s₂, -, hthrow⟩ := run_bind_ok h
      cases hthrow
    | _ => cases h
  · rw [hexecute] at h
    cases h
    obtain ⟨hloader, hmade⟩ := execute_made hexecute
    exact ⟨hloader rfl, hmade⟩

/-- A source that is written and becomes a module can be read from the file. -/
theorem install_made (h : (install source path moduleName).run s = (.ok m, s')) :
    loader path = .source ∧ Frame path s s' ∧ s'.cache = s.cache ∧
      Born source moduleName m s s' ∧
      s'.files.read? path = .ok (Text.encodeUtf8 source) := by
  have hfolders := filing_undone path (Filing.makeFolders_keeps path.parent)
  obtain ⟨_, s₁, hr, h₁⟩ := run_bind_ok h
  have hundone := hfolders.of_run hr
  have hcache : s₁.cache = s.cache := congrArg (fun out => out.2.cache) hr.symm
  rcases hwrite : (Filing.write path (Text.encodeUtf8 source)).run s₁.files with ⟨e | _, tree⟩
  · rw [run_bind, run_filing, hwrite] at h₁
    cases h₁
  · rw [run_bind, run_filing, hwrite] at h₁
    dsimp only [Except.mapError] at h₁
    rw [run_bind_of_ok (run_log _ _)] at h₁
    obtain ⟨hwritten, -⟩ := written_unbuilt _ hwrite
    obtain ⟨hloader, hmade⟩ := executeOrDelete_made h₁
    have hbefore := hundone.toUnbuilt.trans hwritten
    refine ⟨hloader, hbefore.toFrame.trans (hmade.frame path), hmade.cache.trans hcache,
      hmade.toBorn.after hbefore.world hbefore.sources, ?_⟩
    rw [hmade.files]
    exact Filing.read_written hwrite

theorem compile_made {references : List String} {persist : Bool}
    (h : (compile source references path moduleName persist).run s = (.ok m, s')) :
    Frame path s s' ∧ s'.cache = s.cache ∧ Born source moduleName m s s' ∧
      if persist then loader path = .source ∧
        s'.files.read? path = .ok (Text.encodeUtf8 source)
      else s'.files = s.files := by
  have hcount : Frame path s { s with compiles := s.compiles + 1 } :=
    { (Undone.refl path s).toFrame with }
  unfold compile at h
  rw [run_bind_of_ok (run_modify _ _)] at h
  obtain ⟨_, s₁, hcheck, h₁⟩ := run_bind_ok h
  obtain rfl := (check_keeps references path).of_run hcheck
  split_ifs at h₁ ⊢
  · obtain ⟨hloader, hframe, hcache, hborn, hfile⟩ := install_made h₁
    exact ⟨hcount.trans hframe, hcache, hborn.after rfl hcount.sources, hloader, hfile⟩
  · obtain ⟨-, hmade⟩ := execute_made h₁
    exact ⟨hcount.trans (hmade.frame path), hmade.cache, hmade.toBorn.after rfl hcount.sources,
      hmade.files⟩

end Compilation

namespace Session

/-- A module is recorded: under its name, and for its path when it is kept in a file. -/
structure Records (kept : Bool) (path : Path) (moduleName : String) (m : Module)
    (s s' : Session) : Prop where
  world : s'.world = s.world
  files : s'.files = s.files
  sources : s'.sources = s.sources
  module : ∀ name, s'.cache.module? name =
    if name = moduleName then some m else s.cache.module? name
  loaded : ∀ p, s'.cache.loaded? p =
    if kept = true ∧ p = path then some m else s.cache.loaded? p

theorem Records.frame {kept : Bool} {path : Path} {moduleName : String} {m : Module}
    {s s' : Session} (h : Records kept path moduleName m s s') : Frame path s s' where
  home := by rw [h.files]
  locked := by rw [h.files]
  sources := h.sources ▸ List.prefix_refl _
  files _ _ := by rw [h.files]
  others p hp := by rw [h.loaded, if_neg fun hand => hp hand.2]

end Session

namespace Builder

variable (b : Builder) {path : Path} {s s' : Session} {moduleName : String}

theorem compileSource_made {plan : Blueprint} {m : Module}
    (h : (b.compileSource plan path moduleName).run s = (.ok m, s')) :
    (Compilation.compile plan.source plan.references path moduleName
      b.settings.runtimeMode).run s = (.ok m, s') := by
  unfold compileSource at h
  rw [run_tryCatch] at h
  split at h
  next hcompile =>
    cases h
    exact hcompile
  · obtain ⟨_, s₁, -, hthrow⟩ := run_bind_ok h
    cases hthrow

/-- The contracts are derived, their source is compiled, and the module is recorded. -/
theorem compile_ok {components : List Component} {result : BuildResult Module}
    (h : (b.compile components path moduleName).run s = (.ok result, s')) :
    result.state = .compiled ∧ ∃ plan s₁ s₂ s₃,
      result.artifact = some ⟨plan.source, plan.references, path, b.version, moduleName⟩ ∧
      (b.derive components path).run s = (.ok plan, s₁) ∧ Undone path s s₂ ∧
      (Compilation.compile plan.source plan.references path moduleName
        b.settings.runtimeMode).run s₂ = (.ok result.module, s₃) ∧
      Records b.settings.runtimeMode path moduleName result.module s₃ s' := by
  obtain ⟨plan, s₁, hderive, h₁⟩ := run_bind_ok h
  obtain ⟨_, s₂, hfolders, h₂⟩ := run_bind_ok h₁
  obtain ⟨m, s₃, hsource, h₃⟩ := run_bind_ok h₂
  obtain ⟨cache, hrecord, hmodule, hloaded⟩ := b.run_record path moduleName m s₃
  rw [run_bind_of_ok hrecord] at h₃
  cases h₃
  have hundone : Undone path s s₂ := ((b.derive_undone path components).of_run hderive).trans
    ((filing_undone path (Filing.makeFolders_keeps path.parent)).of_run hfolders)
  exact ⟨rfl, plan, s₁, s₂, s₃, rfl, hderive, hundone, b.compileSource_made hsource,
    rfl, rfl, rfl, hmodule, hloaded⟩

end Builder

end ModelContracts
