import ModelContracts.Proofs.Build.Coherence
import ModelContracts.Proofs.Execution.Numbers
import ModelContracts.Proofs.Source.Binding

/-!
Where reused modules come from. Every module in the cache was made by a build, which compiled it or
loaded it from its artifact. A module that is reused from disk was made for the same file and shows
the version that is asked for. A module that is reused from memory is the last one that was made under
the name of the module, whatever file and version that one was for; and callers who share a build
share its version.
-/

namespace ModelContracts

open FileTree Building Session

/-- A module that was made: for which path, and by a builder of which version. -/
structure Birth where
  path : Path
  version : String
  module : Module

namespace Birth

def name (x : Birth) : String := Artifact.moduleName x.path

/-- The last birth of a module with a name; the last birth of all stands first. -/
def latest? (births : List Birth) (name : String) : Option Birth :=
  births.find? fun x => x.name = name

theorem latest?_cons (x : Birth) (births : List Birth) (name : String) :
    latest? (x :: births) name = if name = x.name then some x else latest? births name := by
  by_cases hx : x.name = name
  · simp [latest?, hx]
  · simp [latest?, hx, Ne.symm hx]

end Birth

namespace Session

/-- The birth of the module that a build answers with, if the build made it. -/
def birth (b : Builder) (path : Path) (s : Session) (m : Module) : List Birth :=
  if s.sources.length < m.number then [⟨path, b.version, m⟩] else []

def births (b : Builder) (path : Path) (s : Session) :
    Except BuildError (BuildResult Module) → List Birth
  | .ok result => birth b path s result.module
  | .error _ => []

theorem Executed.number_le {s : Session} {m : Module} {source : String} (h : Executed s m source) :
    m.number ≤ s.sources.length := by
  obtain ⟨hpos, hsource, -⟩ := h
  have hbound := (List.getElem?_eq_some_iff.1 hsource).1
  omega

/-- Whatever is cached was born, and of the modules with one name the cache has the last. -/
structure Traced (births : List Birth) (s : Session) : Prop where
  modules : ∀ name m, s.cache.module? name = some m →
    ∃ x, Birth.latest? births name = some x ∧ x.module = m
  loaded : ∀ p m, s.cache.loaded? p = some m → ∃ x ∈ births, x.path = p ∧ x.module = m
  executed : ∀ x ∈ births, ∃ source, Executed s x.module source

/-- A module was made for a path and recorded, and nothing else was. -/
structure Adds (path : Path) (m : Module) (s s' : Session) : Prop where
  named : m.name = Artifact.moduleName path
  home : s'.files.home = s.files.home
  sources : s.sources <+: s'.sources
  fresh : s.sources.length < m.number
  executed : ∃ source, Executed s' m source
  modules : ∀ name, s'.cache.module? name =
    if name = Artifact.moduleName path then some m else s.cache.module? name
  loaded : ∀ p m', s'.cache.loaded? p = some m' →
    p = path ∧ m' = m ∨ s.cache.loaded? p = some m'
  registered : ∀ name, s'.world.module? name =
    if name = Artifact.moduleName path then some m else s.world.module? name

variable {path : Path} {s t t' s' : Session} {m : Module} {births : List Birth} {source : String}

theorem Unbuilt.loaded {p : Path} (h : Unbuilt path s s') (hm : s'.cache.loaded? p = some m) :
    s.cache.loaded? p = some m := by
  by_cases hp : p = path
  · subst hp
    exact some_of_same_or_gone h.entry hm
  · rwa [h.others p hp] at hm

theorem Unbuilt.module (h : Unbuilt path s s') (name : String) :
    s'.cache.module? name = s.cache.module? name := by
  rw [BuildCache.module?, h.modules, BuildCache.module?]

theorem Undone.adds {kept : Bool} (hundone : Undone path s t)
    (hborn : Born source (Artifact.moduleName path) m t t') (hframe : Frame path t t')
    (hcache : t'.cache = t.cache) (hrecords : Records kept path (Artifact.moduleName path) m t' s') :
    Adds path m s s' where
  named := Compilation.outcome_name hborn.outcome
  home := (hrecords.frame.home.trans hframe.home).trans hundone.home
  sources := (hundone.sources.trans hframe.sources).trans hrecords.frame.sources
  fresh := Nat.lt_of_le_of_lt hundone.sources.length_le hborn.fresh
  executed := ⟨source, hborn.executed.mono hrecords.frame.sources⟩
  modules name := by rw [hrecords.module, hcache, hundone.toUnbuilt.module]
  loaded p m' hm := by
    rw [hrecords.loaded] at hm
    split_ifs at hm with hp
    · exact Or.inl ⟨hp.2, (Option.some.inj hm).symm⟩
    · rw [hcache] at hm
      exact Or.inr (hundone.toUnbuilt.loaded hm)
  registered name := by
    rw [hrecords.world, World.registered_outcome hborn.outcome, hundone.world]

theorem Adds.trans_undone (h : Adds path m s t) (h' : Undone path t s') : Adds path m s s' where
  named := h.named
  home := h'.home.trans h.home
  sources := h.sources.trans h'.sources
  fresh := h.fresh
  executed := h.executed.imp fun _ he => he.mono h'.sources
  modules name := (h'.toUnbuilt.module name).trans (h.modules name)
  loaded p _ hm := h.loaded p _ (h'.toUnbuilt.loaded hm)
  registered name := by rw [h'.world, h.registered]

theorem Adds.after (h : Undone path s t) (h' : Adds path m t s') : Adds path m s s' where
  named := h'.named
  home := h'.home.trans h.home
  sources := h.sources.trans h'.sources
  fresh := Nat.lt_of_le_of_lt h.sources.length_le h'.fresh
  executed := h'.executed
  modules name := by rw [h'.modules, h.toUnbuilt.module]
  loaded p m' hm := (h'.loaded p m' hm).imp id h.toUnbuilt.loaded
  registered name := by rw [h'.registered, h.world]

theorem Traced.unbuilt (h : Traced births s) (hunbuilt : Unbuilt path s s') :
    Traced births s' where
  modules name m hm := h.modules name m (hunbuilt.module name ▸ hm)
  loaded p m hm := h.loaded p m (hunbuilt.loaded hm)
  executed x hx := (h.executed x hx).imp fun _ he => he.mono hunbuilt.sources

theorem Traced.adds (h : Traced births s) (hadds : Adds path m s s') (version : String) :
    Traced (⟨path, version, m⟩ :: births) s' where
  modules name m' hm := by
    rw [hadds.modules] at hm
    rw [Birth.latest?_cons, Birth.name]
    split_ifs at hm ⊢
    · exact ⟨_, rfl, Option.some.inj hm⟩
    · exact h.modules name m' hm
  loaded p m' hm := by
    rcases hadds.loaded p m' hm with ⟨rfl, rfl⟩ | hbefore
    · exact ⟨_, List.mem_cons_self, rfl, rfl⟩
    · obtain ⟨x, hx, hborn⟩ := h.loaded p m' hbefore
      exact ⟨x, List.mem_cons_of_mem _ hx, hborn⟩
  executed x hx := by
    rcases List.mem_cons.1 hx with rfl | hx
    · exact hadds.executed
    · exact (h.executed x hx).imp fun _ he => he.mono hadds.sources

end Session

namespace Builder

variable (b : Builder) {path : Path} {s s' : Session} {components : List Component}

/-- What a build that succeeds answers with: a module that it made, the one that was loaded from the
path before, or the one in memory. -/
inductive Answers (path : Path) (s s' : Session) (result : BuildResult Module) : Prop
  | made (hadds : Adds path result.module s s')
  | loaded (hunbuilt : Unbuilt path s s') (hm : s.cache.loaded? path = some result.module)
      (hversion : result.module.version? = some b.version) (hstate : result.state = .reused)
  | memory (hunbuilt : Unbuilt path s s')
      (hm : s.cache.module? (Artifact.moduleName path) = some result.module)
      (hlog : s'.log.getLast? = some (reused path "memory")) (hstate : result.state = .reused)

theorem load_adds {m : Module} {t t' : Session} (log : List LogRecord) (hundone : Undone path s t)
    (h : (Compilation.load path (Artifact.moduleName path)).run t = (.ok m, t')) :
    Adds path m s { t' with
      cache := (t'.cache.putLoaded path m).putModule (Artifact.moduleName path) m, log := log } := by
  obtain ⟨-, data, source, -, -, hmade⟩ := Compilation.load_made h
  have hrecords : Records true path (Artifact.moduleName path) m t' { t' with
      cache := (t'.cache.putLoaded path m).putModule (Artifact.moduleName path) m, log := log } := by
    refine ⟨rfl, rfl, rfl, fun name => BuildCache.module?_putModule _ _ name m, fun p => ?_⟩
    simp only [true_and]
    exact BuildCache.loaded?_putLoaded t'.cache path p m
  exact hundone.adds hmade.toBorn (hmade.frame path) hmade.cache hrecords

theorem run_answers {result : BuildResult Module}
    (h : (b.run components path).run s = (.ok result, s')) : b.Answers path s s' result := by
  obtain ⟨o, s₁, hreuse, h₁⟩ := run_bind_ok h
  rcases b.reuse_cases path hreuse with ⟨m, s₂, hr, hundone, hentry, hversion, -, log, rfl⟩ |
    ⟨m, s₂, s₃, hr, hundone, hload, log, rfl⟩ | ⟨m, hr, hundone, hm, hlog⟩ | ⟨hundone, hnone⟩
  · cases hr
    cases h₁
    exact .loaded { hundone.toUnbuilt with } (hundone.toUnbuilt.loaded hentry) hversion rfl
  · cases hr
    cases h₁
    exact .made (load_adds log hundone hload)
  · cases hr
    cases h₁
    exact .memory hundone.toUnbuilt hm hlog rfl
  · cases o with
    | some m => exact (hnone m rfl).elim
    | none =>
      obtain ⟨-, plan, s₂, s₃, s₄, -, -, hderived, hsource, hrecords⟩ := b.compile_ok h₁
      obtain ⟨hframe, hcache, hborn, -⟩ := Compilation.compile_made hsource
      exact .made ((hundone.trans hderived).adds hborn hframe hcache hrecords)

theorem run_unbuilt {e : BuildError} (h : (b.run components path).run s = (.error e, s')) :
    Unbuilt path s s' := by
  rcases b.run_error path h with ⟨-, hundone⟩ | ⟨-, ⟨hundone, -⟩ | ⟨-, hleaves, -⟩⟩
  · exact hundone.toUnbuilt
  · exact hundone.toUnbuilt
  · obtain ⟨_, _, _, -, -, hleft⟩ := hleaves
    exact hleft.toUnbuilt

theorem build_answers {result : BuildResult Module}
    (h : (b.build components path).run s = (.ok result, s')) : b.Answers path s s' result := by
  obtain ⟨t, hrun, rfl⟩ := b.run_of_build path h
  have hstart : Undone path s (takeOff path s) := takeOff_undone path s
  have hend : Undone path t _ := land_undone path (s.files.resolve path) t
  cases b.run_answers hrun with
  | made hadds => exact .made ((Adds.after hstart hadds).trans_undone hend)
  | loaded hunbuilt hm hversion hstate =>
    exact .loaded ((hstart.toUnbuilt.trans hunbuilt).trans hend.toUnbuilt) hm hversion hstate
  | memory hunbuilt hm hlog hstate =>
    exact .memory ((hstart.toUnbuilt.trans hunbuilt).trans hend.toUnbuilt) hm hlog hstate

theorem build_unbuilt {e : BuildError} (h : (b.build components path).run s = (.error e, s')) :
    Unbuilt path s s' := by
  obtain ⟨t, hrun, rfl⟩ := b.run_of_build path h
  exact ((takeOff_undone path s).toUnbuilt.trans (b.run_unbuilt hrun)).trans
    (land_undone path (s.files.resolve path) t).toUnbuilt

end Builder

namespace Session

variable {path : Path} {s s' : Session} {births : List Birth}

/-- A module that is older than the build was not made by it. -/
theorem Traced.birth_of_cached (h : Traced births s) {x : Birth} (hx : x ∈ births) (b : Builder)
    (path : Path) : birth b path s x.module = [] := by
  obtain ⟨source, hexecuted⟩ := h.executed x hx
  exact if_neg (Nat.not_lt.2 hexecuted.number_le)

theorem Traced.mem_of_latest {name : String} {x : Birth}
    (hx : Birth.latest? births name = some x) : x ∈ births := List.mem_of_find?_eq_some hx

/-- The births after a build account for what is cached then. -/
theorem Traced.build (h : Traced births s) (b : Builder) (components : List Component)
    (path : Path) :
    Traced (Session.births b path s ((b.build components path).run s).1 ++ births)
      ((b.build components path).run s).2 := by
  rcases hbuild : (b.build components path).run s with ⟨e | result, s'⟩
  · exact h.unbuilt (b.build_unbuilt hbuild)
  · cases b.build_answers hbuild with
    | made hadds =>
      have hbirth : birth b path s result.module = [⟨path, b.version, result.module⟩] :=
        if_pos hadds.fresh
      rw [Session.births, hbirth]
      exact h.adds hadds b.version
    | loaded hunbuilt hm =>
      obtain ⟨x, hx, -, hmodule⟩ := h.loaded path _ hm
      rw [Session.births, ← hmodule, h.birth_of_cached hx]
      exact h.unbuilt hunbuilt
    | memory hunbuilt hm =>
      obtain ⟨x, hx, hmodule⟩ := h.modules _ _ hm
      rw [Session.births, ← hmodule, h.birth_of_cached (mem_of_latest hx)]
      exact h.unbuilt hunbuilt

end Session

/-- Builds one after the other through one cache that was empty at first. Meanwhile the cache is
cleared, files and modules change in any way, and other sources are executed; only the working folder
stays. The births of the modules that the builds made are told, the last one first. -/
inductive History : List Birth → Session → Prop
  | start {s : Session} (hmodules : s.cache.modules = []) (hloaded : s.cache.loaded = []) :
      History [] s
  | build {births : List Birth} {s : Session} (h : History births s) (b : Builder)
      (components : List Component) (path : Path) :
      History (Session.births b path s ((b.build components path).run s).1 ++ births)
        ((b.build components path).run s).2
  | clear {births : List Birth} {s : Session} (h : History births s) :
      History births (clearCache.run s).2
  | other {births : List Birth} {s s' : Session} (h : History births s)
      (hcache : s'.cache = s.cache) (hhome : s'.files.home = s.files.home)
      (hsources : s.sources <+: s'.sources) : History births s'

theorem History.traced {births : List Birth} {s : Session} (h : History births s) :
    Traced births s := by
  induction h with
  | start hmodules hloaded =>
    refine ⟨fun name m hm => ?_, fun p m hm => ?_, fun x hx => ?_⟩
    · rw [BuildCache.module?, hmodules] at hm
      cases hm
    · rw [BuildCache.loaded?, hloaded] at hm
      cases hm
    · cases hx
  | build _ b components path ih => exact ih.build b components path
  | clear _ ih =>
    refine ⟨fun name m hm => ?_, fun p m hm => ?_, ih.executed⟩
    · cases hm
    · cases hm
  | other _ hcache _ hsources ih =>
    refine ⟨fun name m hm => ih.modules name m ?_, fun p m hm => ih.loaded p m ?_, fun x hx => ?_⟩
    · rwa [hcache] at hm
    · rwa [hcache] at hm
    · exact (ih.executed x hx).imp fun _ he => he.mono hsources

/-- The module of an answer was made by a build for the same file, or loaded from the artifact there;
unless it was in memory, where the last module of its name may be of another file or version. -/
theorem History.stems {births : List Birth} {s s' : Session} (h : History births s) {b : Builder}
    {components : List Component} {path : Path} {result : BuildResult Module}
    (hbuild : (b.build components path).run s = (.ok result, s'))
    (hmemory : s'.log.getLast? = some (Builder.reused path "memory") →
      ∀ x, Birth.latest? births (Artifact.moduleName path) = some x →
        s.files.resolve x.path = s.files.resolve path ∧ x.version = b.version) :
    ∃ x ∈ birth b path s result.module ++ births, x.module = result.module ∧
      s.files.resolve x.path = s.files.resolve path ∧
        (x.version = b.version ∨ result.module.version? = some b.version) := by
  cases b.build_answers hbuild with
  | made hadds =>
    refine ⟨⟨path, b.version, result.module⟩, ?_, rfl, rfl, Or.inl rfl⟩
    rw [birth, if_pos hadds.fresh]
    exact List.mem_cons_self
  | loaded _ hm hversion =>
    obtain ⟨x, hx, hpath, hmodule⟩ := h.traced.loaded path _ hm
    exact ⟨x, List.mem_append_right _ hx, hmodule, congrArg _ hpath, Or.inr hversion⟩
  | memory _ hm hlog =>
    obtain ⟨x, hx, hmodule⟩ := h.traced.modules _ _ hm
    obtain ⟨hfile, hversion⟩ := hmemory hlog x hx
    exact ⟨x, List.mem_append_right _ (Traced.mem_of_latest hx), hmodule, hfile, Or.inl hversion⟩

/-- What a caller gets: the answer of its own build, or the shared answer of a build that was under
way for the same file. -/
inductive Gets (owner : Builder) (place : Path) (s : Session) (result : BuildResult Module) :
    Builder → Path → BuildResult Module → Prop
  | own : Gets owner place s result owner place result
  | shared (b : Builder) (path : Path) (hsame : s.files.resolve path = s.files.resolve place) :
      Gets owner place s result b path result.asReused

theorem Gets.module_eq {owner b : Builder} {place path : Path} {s : Session}
    {result answer : BuildResult Module} (h : Gets owner place s result b path answer) :
    answer.module = result.module ∧ s.files.resolve path = s.files.resolve place := by
  cases h with
  | own => exact ⟨rfl, rfl⟩
  | shared _ _ hsame => exact ⟨rfl, hsame⟩

/-- A module that a caller gets was made by a build for the same file, or loaded from the artifact
there, and shows the version of the caller's builder; provided that a module in memory is the last one
of its name and was made for this file and in this version, that a build is shared only within one
version, and that the source of the module sets the version under which it was made. -/
theorem reused_stems {births : List Birth} {s s' : Session} (h : History births s)
    {owner b : Builder} {components : List Component} {place path : Path}
    {result answer : BuildResult Module}
    (hbuild : (owner.build components place).run s = (.ok result, s'))
    (hgets : Gets owner place s result b path answer)
    (hmemory : s'.log.getLast? = some (Builder.reused place "memory") →
      ∀ x, Birth.latest? births (Artifact.moduleName place) = some x →
        s.files.resolve x.path = s.files.resolve place ∧ x.version = owner.version)
    (hshared : owner.version = b.version)
    (hsets : ∀ x ∈ birth owner place s answer.module ++ births, x.module = answer.module →
      ∀ source, Executed s' answer.module source → SetsVersion source x.version) :
    ∃ x ∈ birth owner place s answer.module ++ births, x.module = answer.module ∧
      s.files.resolve x.path = s.files.resolve path ∧
        answer.module.version? = some b.version := by
  obtain ⟨hmodule, hfile⟩ := hgets.module_eq
  rw [hmodule] at hsets ⊢
  rw [hfile, ← hshared]
  obtain ⟨x, hx, hborn, hplace, hversion⟩ := h.stems hbuild hmemory
  refine ⟨x, hx, hborn, hplace, ?_⟩
  rcases hversion with hversion | hversion
  · have htraced := h.traced.build owner components place
    rw [hbuild] at htraced
    obtain ⟨source, hexecuted⟩ := htraced.executed x hx
    rw [hborn] at hexecuted
    rw [← hversion]
    exact hexecuted.version (hsets x hx hborn source hexecuted)
  · exact hversion

namespace Barren

def drafter : Builder := { settings := { runtimeMode := false }, version := "2" }

def namesake : Path := Path.ofText "b/App.py"

theorem history_loaded :
    History (births reader place stamped ((reader.build [] place).run stamped).1 ++ []) loaded :=
  (History.start rfl rfl).build reader [] place

theorem mem_births {x : Birth} {r : Except BuildError (BuildResult Module)}
    (hx : x ∈ births reader place stamped r ++ []) : x.path = place ∧ x.version = "1" := by
  rw [List.append_nil] at hx
  cases r with
  | error e => cases hx
  | ok result =>
    simp only [births, birth] at hx
    split_ifs at hx
    · rw [List.mem_singleton.1 hx]
      exact ⟨rfl, rfl⟩
    · cases hx

theorem source_sets_version : SetsVersion source "1" :=
  ⟨_, rfl, by decide +kernel⟩

theorem loaded_stems : ∃ births result s', History births loaded ∧
    (reader.build [] place).run loaded = (.ok result, s') ∧ result.state = .reused ∧
      ∃ x ∈ birth reader place loaded result.module ++ births, x.module = result.module ∧
        loaded.files.resolve x.path = loaded.files.resolve place ∧
          result.module.version? = some reader.version := by
  have hfacts : (((reader.build [] place).run loaded).1.toOption.map fun result =>
        (result.state, result.module.number)) = some (.reused, 1) ∧
      ((reader.build [] place).run loaded).2.log.getLast? = some (Builder.reused place "disk") ∧
      ((reader.build [] place).run loaded).2.sources[0]? = some source ∧
      loaded.sources.length = 1 := by decide +kernel
  obtain ⟨hstate, hdisk, hsource, hlength⟩ := hfacts
  rcases h : (reader.build [] place).run loaded with ⟨e | result, s'⟩
  · rw [h] at hstate
    cases hstate
  · rw [h] at hstate hdisk hsource
    obtain ⟨hreused, hnumber⟩ := Prod.mk.inj (Option.some.inj hstate)
    refine ⟨_, result, s', history_loaded, rfl, hreused, reused_stems history_loaded h .own
      (fun hmemory => ?_) rfl fun x hx hmodule text hexecuted => ?_⟩
    · cases Builder.reused_memory_ne place (Option.some.inj (hmemory.symm.trans hdisk))
    · have hold : birth reader place loaded result.module = [] :=
        if_neg (by rw [hlength, hnumber]; decide)
      rw [hold, List.nil_append] at hx
      have htext := hexecuted.2.1
      rw [hnumber, hsource] at htext
      cases htext
      rw [(mem_births hx).2]
      exact source_sets_version

/-- A draft for another file of the same name is answered with the module of the first file, which
shows another version. -/
theorem namesake_not_stems : ∃ births result s', History births loaded ∧
    (drafter.build [] namesake).run loaded = (.ok result, s') ∧ result.state = .reused ∧
      (∀ x ∈ birth drafter namesake loaded result.module ++ births, x.module = result.module →
        loaded.files.resolve x.path ≠ loaded.files.resolve namesake) ∧
      result.module.version? ≠ some drafter.version := by
  have hfacts : (((drafter.build [] namesake).run loaded).1.toOption.map fun result =>
        (result.state, result.module.number, result.module.version?)) =
          some (.reused, 1, some "1") ∧
      loaded.sources.length = 1 ∧
      loaded.files.resolve place ≠ loaded.files.resolve namesake := by decide +kernel
  obtain ⟨hstate, hlength, hplace⟩ := hfacts
  rcases h : (drafter.build [] namesake).run loaded with ⟨e | result, s'⟩
  · rw [h] at hstate
    cases hstate
  · rw [h] at hstate
    obtain ⟨hreused, hrest⟩ := Prod.mk.inj (Option.some.inj hstate)
    obtain ⟨hnumber, hversion⟩ := Prod.mk.inj hrest
    refine ⟨_, result, s', history_loaded, rfl, hreused, fun x hx _ => ?_, ?_⟩
    · have hold : birth drafter namesake loaded result.module = [] :=
        if_neg (by rw [hlength, hnumber]; decide)
      rw [hold, List.nil_append] at hx
      rw [(mem_births hx).1]
      exact hplace
    · rw [hversion]
      decide

end Barren

end ModelContracts
