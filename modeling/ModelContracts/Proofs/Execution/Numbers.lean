import ModelContracts.Proofs.Build.Touching
import ModelContracts.Proofs.Execution.Twins

/-!
The numbers of classes. A source is executed under a number that no class has yet, and its classes
carry this number afterwards. So a source can be executed again in a world that is as before, but for
modules that the source does not touch, and what it makes then is what it made before under another
number.
-/

namespace ModelContracts

/-- The classes that something leads to when its attributes are followed. -/
def Entity.classes : Entity → List ClassId
  | .cls c => [c]
  | .value v => v.classes
  | .module _ | .other => []

namespace World

theorem module?_putModule (w : World) (m : Module) (name : String) :
    (w.putModule m).module? name = if name = m.name then some m else w.module? name := by
  have hmap (l : List Module) : (l.map fun n => if n.name = m.name then m else n).find?
      (·.name = name) =
        if name = m.name then (l.find? (·.name = m.name)).map fun _ => m
        else l.find? (·.name = name) := by
    induction l with
    | nil => split_ifs <;> rfl
    | cons n l ih =>
      rw [List.map_cons, List.find?_cons, List.find?_cons, List.find?_cons, ih]
      by_cases hn : n.name = m.name <;> by_cases hname : name = m.name <;>
        simp [hn, hname, eq_comm]
  unfold putModule
  split_ifs with hthere hname hname
  · obtain ⟨n, hn⟩ := Option.isSome_iff_exists.1 hthere
    rw [module?, hmap, if_pos hname, ← module?, hn]
    rfl
  · rw [module?, hmap, if_neg hname]
    rfl
  · have hnone : w.modules.find? (·.name = name) = none := by
      rw [hname]
      simpa [module?] using hthere
    rw [module?, List.find?_append, hnone]
    simp [hname]
  · rw [module?, List.find?_append, List.find?_singleton, if_neg (by simpa [eq_comm] using hname),
      Option.or_none]
    rfl

variable {w w' w'' : World}

@[simp] theorem find?_putModule (w : World) (m : Module) (c : ClassId) :
    (w.putModule m).find? c = w.find? c := by
  unfold putModule
  split_ifs <;> rfl

@[simp] theorem markersOf_putModule (w : World) (m : Module) (c : ClassId) :
    (w.putModule m).markersOf c = w.markersOf c := by
  unfold putModule
  split_ifs <;> rfl

@[simp] theorem nested_putModule (w : World) (m : Module) : (w.putModule m).nested = w.nested := by
  unfold putModule
  split_ifs <;> rfl

@[simp] theorem importable_putModule (w : World) (m : Module) :
    (w.putModule m).importable = w.importable := by
  unfold putModule
  split_ifs <;> rfl

/-- Every class that there is has a number within a bound, and so have the classes that something
leads to. -/
structure Within (bound : Nat) (w : World) : Prop where
  attributes : ∀ name m, w.module? name = some m → ∀ a ∈ m.attributes, ∀ c ∈ a.2.classes,
    c.generation ≤ bound
  nested : ∀ c name d, w.nested.lookup (c, name) = some d →
    c.generation ≤ bound ∧ d.generation ≤ bound
  classes : ∀ c i, w.find? c = some i → c.generation ≤ bound
  lineage : ∀ c i, w.find? c = some i → ∀ d ∈ i.lineage, d.generation ≤ bound
  members : ∀ c i, w.find? c = some i → ∀ m ∈ i.members, ∀ d ∈ m.2.classes, d.generation ≤ bound
  markers : ∀ c, ∀ m ∈ w.markersOf c, c.generation ≤ bound ∧ m.kind.generation ≤ bound

theorem Within.mono {bound bound' : Nat} (h : w.Within bound) (hle : bound ≤ bound') :
    w.Within bound' where
  attributes name m hm a ha c hc := Nat.le_trans (h.attributes name m hm a ha c hc) hle
  nested c name d hd := by
    obtain ⟨hc, hd⟩ := h.nested c name d hd
    exact ⟨Nat.le_trans hc hle, Nat.le_trans hd hle⟩
  classes c i hi := Nat.le_trans (h.classes c i hi) hle
  lineage c i hi d hd := Nat.le_trans (h.lineage c i hi d hd) hle
  members c i hi m hm d hd := Nat.le_trans (h.members c i hi m hm d hd) hle
  markers c m hm := by
    obtain ⟨hc, hkind⟩ := h.markers c m hm
    exact ⟨Nat.le_trans hc hle, Nat.le_trans hkind hle⟩

theorem within_of_forall {bound : Nat}
    (hmodules : ∀ m ∈ w.modules, ∀ a ∈ m.attributes, ∀ c ∈ a.2.classes, c.generation ≤ bound)
    (hnested : ∀ e ∈ w.nested, e.1.1.generation ≤ bound ∧ e.2.generation ≤ bound)
    (hclasses : ∀ i ∈ w.classes, i.id.generation ≤ bound ∧
      (∀ d ∈ i.lineage, d.generation ≤ bound) ∧
        ∀ m ∈ i.members, ∀ d ∈ m.2.classes, d.generation ≤ bound)
    (hmarkers : ∀ e ∈ w.classMarkers, e.1.generation ≤ bound ∧
      ∀ m ∈ e.2, m.kind.generation ≤ bound) : w.Within bound where
  attributes name m hm := hmodules m (List.mem_of_find?_eq_some hm)
  nested c name d hd := hnested _ (mem_of_lookup hd)
  classes c i hi := by
    have hid : i.id = c := by simpa using List.find?_some hi
    exact hid ▸ (hclasses i (List.mem_of_find?_eq_some hi)).1
  lineage c i hi := (hclasses i (List.mem_of_find?_eq_some hi)).2.1
  members c i hi := (hclasses i (List.mem_of_find?_eq_some hi)).2.2
  markers c m hm := by
    unfold markersOf at hm
    rcases hms : w.classMarkers.lookup c with _ | ms
    · rw [hms] at hm
      cases hm
    · rw [hms] at hm
      obtain ⟨hc, hkinds⟩ := hmarkers _ (mem_of_lookup hms)
      exact ⟨hc, hkinds m hm⟩

/-! Nothing is known of a class with a number beyond the bound. -/

theorem Within.find?_beyond {bound : Nat} (h : w.Within bound) {c : ClassId}
    (hc : bound < c.generation) : w.find? c = none :=
  Option.eq_none_iff_forall_ne_some.2 fun i hi => Nat.not_le_of_lt hc (h.classes c i hi)

theorem Within.nested_beyond {bound : Nat} (h : w.Within bound) {c : ClassId}
    (hc : bound < c.generation) (label : String) : w.nested.lookup (c, label) = none :=
  Option.eq_none_iff_forall_ne_some.2 fun d hd => Nat.not_le_of_lt hc (h.nested c label d hd).1

theorem Within.markers_beyond {bound : Nat} (h : w.Within bound) {c : ClassId}
    (hc : bound < c.generation) : w.markersOf c = [] :=
  List.eq_nil_iff_forall_not_mem.2 fun m hm => Nat.not_le_of_lt hc (h.markers c m hm).1

/-- What some statements of a module can reach: neither one of some other modules, nor a class with a
number beyond a bound. -/
structure Apart (others : List String) (name : String) (bound : Nat) (w : World)
    (statements : List Statement) : Prop where
  undotted : ∀ m ∈ others, '.' ∉ m.toList
  builtins : "builtins" ∉ others
  imports : ∀ s ∈ statements, ∀ m ∈ s.imports, m ∉ others
  modules : ∀ m, m ∉ others → m ≠ name → ∀ n, w.module? m = some n → ∀ a ∈ n.attributes,
    (∀ o ∈ others, a.2 ≠ .module o) ∧ ∀ c ∈ a.2.classes, c.generation ≤ bound
  nested : ∀ c label d, c.generation ≤ bound → w.nested.lookup (c, label) = some d →
    d.generation ≤ bound
  lineage : ∀ c i, c.generation ≤ bound → w.find? c = some i → ∀ d ∈ i.lineage,
    d.generation ≤ bound
  members : ∀ c i, c.generation ≤ bound → w.find? c = some i → ∀ m ∈ i.members,
    ∀ d ∈ m.2.classes, d.generation ≤ bound
  kinds : ∀ c, c.generation ≤ bound → ∀ m ∈ w.markersOf c, m.kind.generation ≤ bound

theorem Within.apart {bound : Nat} (h : w.Within bound) (name : String)
    (statements : List Statement) : w.Apart [] name bound statements where
  undotted := nofun
  builtins := nofun
  imports _ _ _ _ := nofun
  modules m _ _ n hn a ha := ⟨nofun, h.attributes m n hn a ha⟩
  nested c label d _ hd := (h.nested c label d hd).2
  lineage c i _ hi := h.lineage c i hi
  members c i _ hi := h.members c i hi
  kinds c _ m hm := (h.markers c m hm).2

/-- As far as classes with a number within a bound go, and but for one module and some others, the
worlds are the same. -/
structure Same (others : List String) (name : String) (bound : Nat) (w w' : World) : Prop where
  importable : w'.importable = w.importable
  modules : ∀ m, m ∉ others → m ≠ name →
    (w'.module? m).map (·.attributes) = (w.module? m).map (·.attributes)
  nested : ∀ c label, c.generation ≤ bound →
    w'.nested.lookup (c, label) = w.nested.lookup (c, label)
  find : ∀ c, c.generation ≤ bound → w'.find? c = w.find? c
  markers : ∀ c, c.generation ≤ bound → w'.markersOf c = w.markersOf c

theorem Same.refl (others : List String) (name : String) (bound : Nat) (w : World) :
    Same others name bound w w :=
  ⟨rfl, fun _ _ _ => rfl, fun _ _ _ => rfl, fun _ _ => rfl, fun _ _ => rfl⟩

end World

namespace Renumbering

variable {ρ : Renumbering} {w w' : World}

theorem info_eq {i : ClassInfo} (hid : ρ.Old i.id) (hlineage : ∀ d ∈ i.lineage, ρ.Old d) :
    ρ.info i = i := by
  have hmap : i.lineage.map ρ.cls = i.lineage :=
    (List.map_congr_left fun d hd => (hlineage d hd).cls_eq).trans (List.map_id _)
  rw [info, hid.cls_eq, hmap]

theorem marker_eq {ms : List Marker} (h : ∀ m ∈ ms, ρ.Old m.kind) : ms.map ρ.marker = ms := by
  refine (List.map_congr_left fun m hm => ?_).trans (List.map_id _)
  rw [marker, (h m hm).cls_eq]
  rfl

theorem find?_id {c : ClassId} {i : ClassInfo} (h : w.find? c = some i) : i.id = c := by
  simpa using List.find?_some h

/-- The module is about to be executed in two worlds that are the same as far as it can reach. -/
theorem mirror_start {statements : List Statement} {bound bound' : Nat} (hw : w.Within bound)
    (hbound : bound < ρ.first) (hw' : w'.Within bound') (hbound' : bound' < ρ.second)
    (hsame : World.Same ρ.others ρ.module ρ.bound w w')
    (hapart : w.Apart ρ.others ρ.module ρ.bound statements) :
    ρ.Mirror (w.putModule ⟨ρ.module, [], ρ.first⟩) (w'.putModule ⟨ρ.module, [], ρ.second⟩) := by
  -- The classes of the module itself are in neither world yet.
  have hbeyond {c : ClassId} (hc : ρ.Own c) : bound < c.generation := hc.2.symm ▸ hbound
  have hbeyond' {c : ClassId} (hc : ρ.Own c) : bound' < (ρ.cls c).generation := by
    rw [hc.cls_eq]
    exact hbound'
  constructor
  case importable => simpa using hsame.importable
  case modules =>
    intro m hm
    rw [World.module?_putModule, World.module?_putModule]
    split_ifs with hname
    · rfl
    · exact hsame.modules m hm hname
  case attributes =>
    intro m hm n hn a ha
    rw [World.module?_putModule] at hn
    split_ifs at hn with hname
    · cases hn
      cases ha
    · obtain ⟨hmodule, hclasses⟩ := hapart.modules m hm hname n hn a ha
      revert hclasses hmodule
      rcases a.2 with c | v | o | _ <;> intro hmodule hclasses
      · exact hclasses c List.mem_cons_self
      · exact hclasses
      · exact fun ho => hmodule o ho rfl
      · trivial
  case nested =>
    intro c label hc
    rw [World.nested_putModule, World.nested_putModule]
    rcases hc with hc | hc
    · rw [hc.cls_eq]
      exact hsame.nested c label hc
    · rw [hw.nested_beyond (hbeyond hc)]
      exact hw'.nested_beyond (hbeyond' hc) label
  case nestedOld =>
    intro c label d hc hd
    rw [World.nested_putModule] at hd
    rcases hc with hc | hc
    · exact hapart.nested c label d hc hd
    · rw [hw.nested_beyond (hbeyond hc)] at hd
      cases hd
  case find =>
    intro c hc
    rw [World.find?_putModule, World.find?_putModule]
    rcases hc with hc | hc
    · rw [hc.cls_eq, hsame.find c hc]
      rcases hi : w.find? c with _ | i
      · rfl
      · have hid : ρ.Old i.id := by rwa [find?_id hi]
        rw [Option.map_some, info_eq hid (hapart.lineage c i hc hi)]
    · rw [hw.find?_beyond (hbeyond hc), hw'.find?_beyond (hbeyond' hc)]
      rfl
  case lineage =>
    intro c i hc hi d hd
    rw [World.find?_putModule] at hi
    rcases hc with hc | hc
    · exact Old.known (hapart.lineage c i hc hi d hd)
    · rw [hw.find?_beyond (hbeyond hc)] at hi
      cases hi
  case members =>
    intro c i hc hi m hm
    rw [World.find?_putModule] at hi
    rcases hc with hc | hc
    · exact ⟨hc, hapart.members c i hc hi m hm⟩
    · rw [hw.find?_beyond (hbeyond hc)] at hi
      cases hi
  case markers =>
    intro c hc
    rw [World.markersOf_putModule, World.markersOf_putModule]
    rcases hc with hc | hc
    · rw [hc.cls_eq, hsame.markers c hc, marker_eq fun m hm => hapart.kinds c hc m hm]
    · rw [hw.markers_beyond (hbeyond hc)]
      exact hw'.markers_beyond (hbeyond' hc)
  case kinds =>
    intro c hc m hm
    rw [World.markersOf_putModule] at hm
    rcases hc with hc | hc
    · exact Old.known (hapart.kinds c hc m hm)
    · rw [hw.markers_beyond (hbeyond hc)] at hm
      cases hm

theorem twins_start {statements : List Statement} {bound bound' : Nat} (hw : w.Within bound)
    (hbound : bound < ρ.first) (hw' : w'.Within bound') (hbound' : bound' < ρ.second)
    (hsame : World.Same ρ.others ρ.module ρ.bound w w')
    (hapart : w.Apart ρ.others ρ.module ρ.bound statements) :
    ρ.Twins
      { world := w.putModule ⟨ρ.module, [], ρ.first⟩, name := ρ.module, number := ρ.first }
      { world := w'.putModule ⟨ρ.module, [], ρ.second⟩, name := ρ.module, number := ρ.second } where
  name := rfl
  name' := rfl
  number := rfl
  number' := rfl
  attributes := rfl
  reaches := nofun
  functions := rfl
  bodies := nofun
  world := mirror_start hw hbound hw' hbound' hsame hapart

end Renumbering

namespace Compilation

variable {w w' : World} {number : Nat} {source name : String} {m : Module}

/-- The module is registered without attributes, its statements run, and it is registered again. -/
theorem outcome_ok (h : outcome w number source name = .ok (w', m)) :
    ∃ statements x, Statement.ofSource source = .ok statements ∧
      Execution.runAll { world := w.putModule ⟨name, [], number⟩, name := name, number := number }
        statements = .ok x ∧ w' = x.world.putModule x.module ∧ m = x.module := by
  unfold outcome at h
  split at h
  · cases h
  next statements hstatements =>
    dsimp only at h
    split at h
    · cases h
    next x hx =>
      cases h
      exact ⟨statements, x, hstatements, hx, rfl, rfl⟩

theorem outcome_of_runAll {statements : List Statement} {x : Execution}
    (h : Statement.ofSource source = .ok statements)
    (hx : Execution.runAll { world := w.putModule ⟨name, [], number⟩, name := name, number := number }
      statements = .ok x) :
    outcome w number source name = .ok (x.world.putModule x.module, x.module) := by
  unfold outcome
  rw [h]
  dsimp only
  rw [hx]

theorem outcome_name (h : outcome w number source name = .ok (w', m)) : m.name = name := by
  obtain ⟨statements, x, -, hx, -, rfl⟩ := outcome_ok h
  exact (Execution.runAll_grows hx).name

end Compilation

open Compilation Renumbering

namespace World

variable {w w' w'' : World} {number bound : Nat} {source name : String} {m : Module}

/-- Executing a source changes its own module and its own classes only. -/
structure Remade (name : String) (number : Nat) (w w' : World) : Prop where
  importable : w'.importable = w.importable
  modules : ∀ m, m ≠ name → w'.module? m = w.module? m
  nested : w'.nested = w.nested
  find : ∀ c, ¬ (c.moduleName = name ∧ c.generation = number) → w'.find? c = w.find? c
  markers : ∀ c, ¬ (c.moduleName = name ∧ c.generation = number) → w'.markersOf c = w.markersOf c

theorem remade_outcome (h : outcome w number source name = .ok (w', m)) :
    Remade name number w w' := by
  obtain ⟨statements, x, -, hx, rfl, rfl⟩ := outcome_ok h
  obtain ⟨hname, -, hgrown⟩ := Execution.runAll_grows hx
  constructor
  case importable => simpa using hgrown.importable
  case modules =>
    intro m hm
    have hmodules : x.world.module? m = (w.putModule ⟨name, [], number⟩).module? m := by
      rw [module?, module?, hgrown.modules]
    rw [module?_putModule, if_neg (by rwa [Execution.module, hname]), hmodules, module?_putModule,
      if_neg hm]
  case nested => simpa using hgrown.nested
  case find =>
    intro c hc
    simpa using hgrown.find c hc
  case markers =>
    intro c hc
    simpa using hgrown.markers c hc

/-- The module stands under its name afterwards. -/
theorem registered_outcome (h : outcome w number source name = .ok (w', m)) (n : String) :
    w'.module? n = if n = name then some m else w.module? n := by
  have hremade := remade_outcome h
  obtain ⟨statements, x, -, hx, rfl, rfl⟩ := outcome_ok h
  split_ifs with hn
  · have hname : x.module.name = name := (Execution.runAll_grows hx).name
    rw [module?_putModule, hname, if_pos hn]
  · exact hremade.modules n hn

theorem within_outcome (hw : w.Within bound) (hbound : bound < number)
    (h : outcome w number source name = .ok (w', m)) : w'.Within number := by
  have hremade := remade_outcome h
  obtain ⟨statements, x, -, hx, rfl, rfl⟩ := outcome_ok h
  -- The source is compared with itself, so that what holds of the first execution can be read off.
  let ρ : Renumbering := ⟨name, number, number, bound, [], hbound, hbound, nofun, nofun⟩
  have hsame : w.Same [] name bound w := .refl ..
  have hstart : ρ.Twins _ _ := twins_start hw hbound hw hbound hsame (hw.apart name statements)
  obtain ⟨x', -, htwins⟩ := hstart.runAll_follows nofun x hx
  have hname : x.name = name := htwins.name
  have hold : ∀ c : ClassId, c.generation ≤ bound → c.generation ≤ number :=
    fun c hc => Nat.le_trans hc (Nat.le_of_lt hbound)
  have hknown : ∀ c, ρ.Known c → c.generation ≤ number := by
    rintro c (hc | hc)
    · exact hold c hc
    · exact Nat.le_of_eq hc.2
  have hfound : ∀ c i, x.world.find? c = some i → ρ.Known c := by
    intro c i hi
    by_cases hc : c.moduleName = name ∧ c.generation = number
    · exact Or.inr hc
    · rw [← find?_putModule x.world x.module, hremade.find c hc] at hi
      exact Or.inl (hw.classes c i hi)
  constructor
  case attributes =>
    intro n m hm a ha c hc
    by_cases hn : n = name
    · rw [module?_putModule, if_pos (by rwa [Execution.module, hname])] at hm
      cases hm
      have hreaches := htwins.reaches a ha
      revert hreaches hc
      rcases a.2 with d | v | o | _ <;> intro hc hreaches
      · rw [List.mem_singleton.1 hc]
        exact hknown d hreaches
      · exact hold c (hreaches c hc)
      · cases hc
      · cases hc
    · rw [hremade.modules n hn] at hm
      exact hold c (hw.attributes n m hm a ha c hc)
  case nested =>
    intro c n d hd
    rw [hremade.nested] at hd
    exact (hw.nested c n d hd).imp (hold c) (hold d)
  case classes =>
    intro c i hi
    rw [find?_putModule] at hi
    exact hknown c (hfound c i hi)
  case lineage =>
    intro c i hi d hd
    rw [find?_putModule] at hi
    exact hknown d (htwins.world.lineage c i (hfound c i hi) hi d hd)
  case members =>
    intro c i hi m hm d hd
    rw [find?_putModule] at hi
    exact hold d ((htwins.world.members c i (hfound c i hi) hi m hm).2 d hd)
  case markers =>
    intro c m hm
    by_cases hc : c.moduleName = name ∧ c.generation = number
    · rw [markersOf_putModule] at hm
      exact ⟨Nat.le_of_eq hc.2, hknown _ (htwins.world.kinds c (Or.inr hc) m hm)⟩
    · rw [hremade.markers c hc] at hm
      exact (hw.markers c m hm).imp (hold c) (hold _)

/-- A source that is executed leaves the worlds the same, if it belongs to a module that does not
count. -/
theorem Same.outcome {others : List String} {other : String} {base : World}
    (h : Same others name bound base w) (hother : other = name ∨ other ∈ others)
    (hbound : bound < number) (houtcome : outcome w number source other = .ok (w', m)) :
    Same others name bound base w' := by
  have hremade := remade_outcome houtcome
  have hnew : ∀ c : ClassId, c.generation ≤ bound →
      ¬ (c.moduleName = other ∧ c.generation = number) := by
    rintro c hc ⟨-, rfl⟩
    omega
  constructor
  case importable => exact hremade.importable.trans h.importable
  case modules =>
    intro n hn hne
    have hapart : n ≠ other := by
      rintro rfl
      exact hother.elim hne hn
    rw [hremade.modules n hapart]
    exact h.modules n hn hne
  case nested =>
    intro c label hc
    rw [hremade.nested]
    exact h.nested c label hc
  case find =>
    intro c hc
    rw [hremade.find c (hnew c hc)]
    exact h.find c hc
  case markers =>
    intro c hc
    rw [hremade.markers c (hnew c hc)]
    exact h.markers c hc

end World

namespace Renumbering

/-- A module was made twice: each name means the same, and the classes have the same ancestors and the
same markers, but for the numbers of the classes of the module itself. -/
structure Copies (ρ : Renumbering) (w w' : World) (m m' : Module) : Prop where
  name : m'.name = m.name
  attributes : m'.attributes = ρ.attributes m.attributes
  find : ∀ c, ρ.Known c → w'.find? (ρ.cls c) = (w.find? c).map ρ.info
  markers : ∀ c, ρ.Known c → w'.markersOf (ρ.cls c) = (w.markersOf c).map ρ.marker

end Renumbering

/-- A source that made a module makes it again where all is the same that it can reach. -/
theorem Compilation.outcome_again {ρ : Renumbering} {w w' v : World} {source source' : String}
    {m : Module} {statements : List Statement} {bound bound' : Nat}
    (h : outcome w ρ.first source ρ.module = .ok (v, m))
    (hsource : Statement.ofSource source = .ok statements)
    (hsource' : Statement.ofSource source' = .ok statements)
    (hw : w.Within bound) (hbound : bound < ρ.first) (hw' : w'.Within bound')
    (hbound' : bound' < ρ.second) (hsame : World.Same ρ.others ρ.module ρ.bound w w')
    (hapart : w.Apart ρ.others ρ.module ρ.bound statements) :
    ∃ v' m', outcome w' ρ.second source' ρ.module = .ok (v', m') ∧ ρ.Copies v v' m m' := by
  obtain ⟨statements', x, hstatements, hx, rfl, rfl⟩ := outcome_ok h
  obtain rfl : statements' = statements := Except.ok.inj (hstatements.symm.trans hsource)
  have hstart := twins_start hw hbound hw' hbound' hsame hapart
  obtain ⟨x', hx', htwins⟩ := hstart.runAll_follows hapart.imports x hx
  refine ⟨_, _, outcome_of_runAll hsource' hx', ?_⟩
  constructor
  case name => exact htwins.name'.trans htwins.name.symm
  case attributes => exact htwins.attributes
  case find =>
    intro c hc
    rw [World.find?_putModule, World.find?_putModule]
    exact htwins.world.find c hc
  case markers =>
    intro c hc
    rw [World.markersOf_putModule, World.markersOf_putModule]
    exact htwins.world.markers c hc

end ModelContracts
