import ModelContracts.Proofs.Build.Provenance

/-!
Which module is registered. A build registers the module that it makes under the name of the module,
and nothing else; so what is registered under a name is the last module that was made under it. A
module that is answered with again is not registered again: it is the one that is registered if it was
made last, which holds for every answer but one from the table of what was loaded from paths.
-/

namespace ModelContracts

open FileTree Building Session

/-- Builds one after the other through one cache that was empty at first. Meanwhile the cache is
cleared and files and the world change, but the modules that builds made stay registered. The births
of these modules are told, the last one first. -/
inductive Served : List Birth → Session → Prop
  | start {s : Session} (hmodules : s.cache.modules = []) (hloaded : s.cache.loaded = []) :
      Served [] s
  | build {births : List Birth} {s : Session} (h : Served births s) (b : Builder)
      (components : List Component) (path : Path) :
      Served (Session.births b path s ((b.build components path).run s).1 ++ births)
        ((b.build components path).run s).2
  | clear {births : List Birth} {s : Session} (h : Served births s) :
      Served births (clearCache.run s).2
  | other {births : List Birth} {s s' : Session} (h : Served births s)
      (hcache : s'.cache = s.cache) (hhome : s'.files.home = s.files.home)
      (hsources : s.sources <+: s'.sources)
      (hworld : ∀ x ∈ births, s'.world.module? x.name = s.world.module? x.name) : Served births s'

theorem Served.history {births : List Birth} {s : Session} (h : Served births s) :
    History births s := by
  induction h with
  | start hmodules hloaded => exact .start hmodules hloaded
  | build _ b components path ih => exact ih.build b components path
  | clear _ ih => exact ih.clear
  | other _ hcache hhome hsources _ ih => exact ih.other hcache hhome hsources

namespace Session

variable {path : Path} {births : List Birth} {s s' : Session} {m : Module}

/-- The modules that were made have the names under which they were made, and the last one of every
name is registered. -/
structure Enrolled (births : List Birth) (s : Session) : Prop where
  named : ∀ x ∈ births, x.module.name = x.name
  last : ∀ name x, Birth.latest? births name = some x → s.world.module? name = some x.module

theorem Enrolled.of_world (h : Enrolled births s)
    (hworld : ∀ x ∈ births, s'.world.module? x.name = s.world.module? x.name) :
    Enrolled births s' where
  named := h.named
  last name x hx := by
    have hname : x.name = name := by simpa [Birth.latest?] using List.find?_some hx
    have hkept := hworld x (Traced.mem_of_latest hx)
    rw [hname] at hkept
    rw [hkept, h.last name x hx]

theorem Enrolled.adds (h : Enrolled births s) (hadds : Adds path m s s') (version : String) :
    Enrolled (⟨path, version, m⟩ :: births) s' where
  named x hx := by
    rcases List.mem_cons.1 hx with rfl | hx
    · exact hadds.named
    · exact h.named x hx
  last name x hx := by
    rw [Birth.latest?_cons, Birth.name] at hx
    rw [hadds.registered]
    split_ifs at hx ⊢
    · cases hx
      rfl
    · exact h.last name x hx

theorem Enrolled.build (h : Enrolled births s) (htraced : Traced births s) (b : Builder)
    (components : List Component) (path : Path) :
    Enrolled (Session.births b path s ((b.build components path).run s).1 ++ births)
      ((b.build components path).run s).2 := by
  rcases hbuild : (b.build components path).run s with ⟨e | result, s'⟩
  · have hworld := (b.build_unbuilt hbuild).world
    exact h.of_world fun x _ => by rw [hworld]
  · cases b.build_answers hbuild with
    | made hadds =>
      have hbirth : birth b path s result.module = [⟨path, b.version, result.module⟩] :=
        if_pos hadds.fresh
      rw [Session.births, hbirth]
      exact h.adds hadds b.version
    | loaded hunbuilt hm =>
      obtain ⟨x, hx, -, hmodule⟩ := htraced.loaded path _ hm
      rw [Session.births, ← hmodule, htraced.birth_of_cached hx]
      exact h.of_world fun x _ => by rw [hunbuilt.world]
    | memory hunbuilt hm =>
      obtain ⟨x, hx, hmodule⟩ := htraced.modules _ _ hm
      rw [Session.births, ← hmodule, htraced.birth_of_cached (Traced.mem_of_latest hx)]
      exact h.of_world fun x _ => by rw [hunbuilt.world]

end Session

theorem Served.enrolled {births : List Birth} {s : Session} (h : Served births s) :
    Enrolled births s := by
  induction h with
  | start => exact ⟨nofun, nofun⟩
  | build hserved b components path ih => exact ih.build hserved.history.traced b components path
  | clear _ ih => exact ⟨ih.named, ih.last⟩
  | other _ _ _ _ hworld ih => exact ih.of_world hworld

namespace Served

variable {births : List Birth} {s s' : Session} {b : Builder} {components : List Component}
  {path : Path} {result : BuildResult Module}

/-- The module of an answer has the name that its path gives, and some module was made under that
name; if the build made the module or found it in memory, then this one was made last. -/
theorem latest_of_answer (h : Served births s)
    (hbuild : (b.build components path).run s = (.ok result, s')) :
    result.module.name = Artifact.moduleName path ∧
      ∃ x, Birth.latest? (birth b path s result.module ++ births) (Artifact.moduleName path) =
          some x ∧
        (x.module = result.module ∨ result.state = .reused ∧
          s.cache.loaded? path = some result.module ∧ result.module.number ≤ s.sources.length) := by
  have htraced := h.history.traced
  have hnamed := h.enrolled.named
  cases b.build_answers hbuild with
  | made hadds =>
    refine ⟨hadds.named, ⟨path, b.version, result.module⟩, ?_, Or.inl rfl⟩
    rw [birth, if_pos hadds.fresh, List.singleton_append, Birth.latest?_cons]
    exact if_pos rfl
  | loaded hunbuilt hm hversion hstate =>
    obtain ⟨x, hx, hpath, hmodule⟩ := htraced.loaded path _ hm
    obtain ⟨source, hexecuted⟩ := htraced.executed x hx
    have hname : x.name = Artifact.moduleName path := by rw [Birth.name, hpath]
    have hsome : (Birth.latest? births (Artifact.moduleName path)).isSome :=
      List.find?_isSome.2 ⟨x, hx, decide_eq_true hname⟩
    obtain ⟨y, hy⟩ := Option.isSome_iff_exists.1 hsome
    have hold := htraced.birth_of_cached hx b path
    rw [hmodule] at hold hexecuted
    refine ⟨?_, y, ?_, Or.inr ⟨hstate, hm, hexecuted.number_le⟩⟩
    · rw [← hmodule, hnamed x hx, hname]
    · rw [hold, List.nil_append, hy]
  | memory hunbuilt hm =>
    obtain ⟨x, hx, hmodule⟩ := htraced.modules _ _ hm
    have hmem := Traced.mem_of_latest hx
    have hname : x.name = Artifact.moduleName path := by
      simpa [Birth.latest?] using List.find?_some hx
    have hold := htraced.birth_of_cached hmem b path
    rw [hmodule] at hold
    refine ⟨?_, x, ?_, Or.inl hmodule⟩
    · rw [← hmodule, hnamed x hmem, hname]
    · rw [hold, List.nil_append, hx]

end Served

/-- The module that a caller gets is the registered one exactly if no other module was made under its
name since it was made. So it is registered whenever the build made it, by compiling or by loading, or
found it in memory; only one that was loaded from its path before may have been superseded. -/
theorem answer_registered_iff {births : List Birth} {s s' : Session} (h : Served births s)
    {owner b : Builder} {components : List Component} {place path : Path}
    {result answer : BuildResult Module}
    (hbuild : (owner.build components place).run s = (.ok result, s'))
    (hgets : Gets owner place s result b path answer) :
    (s'.world.module? answer.module.name = some answer.module ↔
      ∀ x, Birth.latest? (birth owner place s answer.module ++ births) answer.module.name = some x →
        x.module = answer.module) ∧
      (result.state = .compiled ∨ s.sources.length < answer.module.number ∨
          s.cache.loaded? place ≠ some answer.module →
        s'.world.module? answer.module.name = some answer.module) := by
  rw [hgets.module_eq.1]
  obtain ⟨hname, x, hx, hanswer⟩ := h.latest_of_answer hbuild
  have hregistered := (h.build owner components place).enrolled.last (Artifact.moduleName place) x
  rw [hbuild] at hregistered
  have hworld := hregistered hx
  rw [hname, hworld, hx]
  refine ⟨⟨fun heq y hy => ?_, fun hlast => ?_⟩, fun hmade => ?_⟩
  · rw [← Option.some.inj hy]
    exact Option.some.inj heq
  · rw [hlast x rfl]
  · rcases hanswer with hsame | ⟨hstate, hloaded, hnumber⟩
    · rw [hsame]
    · rcases hmade with hcompiled | hfresh | hother
      · rw [hstate] at hcompiled
        cases hcompiled
      · omega
      · exact (hother hloaded).elim

namespace Barren

/-- Two artifacts whose modules have one name. -/
def paired : Session :=
  { session with files :=
    { files := [(["App.py"], Text.encodeUtf8 source), (["b", "App.py"], Text.encodeUtf8 source)]
      folders := [["b"]] } }

def first : Session := ((reader.build [] place).run paired).2

def second : Session := ((reader.build [] namesake).run first).2

theorem served_first :
    Served (births reader place paired ((reader.build [] place).run paired).1 ++ []) first :=
  (Served.start rfl rfl).build reader [] place

theorem served_second : ∃ births, Served births second :=
  ⟨_, served_first.build reader [] namesake⟩

theorem second_registered : ∃ result s', (reader.build [] namesake).run first = (.ok result, s') ∧
    result.state = .reused ∧ s'.world.module? result.module.name = some result.module := by
  have hfacts : (((reader.build [] namesake).run first).1.toOption.map fun result =>
      (result.state, result.module.number)) = some (.reused, 2) ∧
        first.sources.length = 1 := by decide +kernel
  obtain ⟨hstate, hlength⟩ := hfacts
  rcases h : (reader.build [] namesake).run first with ⟨e | result, s'⟩
  · rw [h] at hstate
    cases hstate
  · rw [h] at hstate
    obtain ⟨hreused, hnumber⟩ := Prod.mk.inj (Option.some.inj hstate)
    refine ⟨result, s', rfl, hreused, (answer_registered_iff served_first h .own).2 ?_⟩
    exact Or.inr (Or.inl (by rw [hlength, hnumber]; decide))

/-- The first artifact is answered with again, while the module of the second is registered. -/
theorem first_superseded : ∃ births s result s', Served births s ∧
    (reader.build [] place).run s = (.ok result, s') ∧ result.state = .reused ∧
      s'.world.module? result.module.name ≠ some result.module := by
  have hfacts : (((reader.build [] place).run second).1.toOption.map fun result =>
      (result.state, result.module.name, result.module.number)) =
        some (.reused, Artifact.moduleName place, 1) ∧
      (((reader.build [] place).run second).2.world.module? (Artifact.moduleName place)).map
        (·.number) = some 2 := by decide +kernel
  obtain ⟨hstate, hregistered⟩ := hfacts
  obtain ⟨births, hserved⟩ := served_second
  rcases h : (reader.build [] place).run second with ⟨e | result, s'⟩
  · rw [h] at hstate
    cases hstate
  · rw [h] at hstate hregistered
    obtain ⟨hreused, hrest⟩ := Prod.mk.inj (Option.some.inj hstate)
    obtain ⟨hname, hnumber⟩ := Prod.mk.inj hrest
    refine ⟨births, second, result, s', hserved, h, hreused, fun hsame => ?_⟩
    rw [hname] at hsame
    rw [hsame, Option.map_some, hnumber] at hregistered
    cases hregistered

end Barren

end ModelContracts
