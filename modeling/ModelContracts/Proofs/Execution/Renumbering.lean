import ModelContracts.Proofs.Execution.Growth

/-!
The same source executed twice. The classes that it declares have another number the second time; all
else that it can reach is the same. What a name leads to in the one world is what it leads to in the
other, but for the number.
-/

namespace ModelContracts

/-- The classes that a value leads to when its attributes are followed. -/
def Value.classes : Value → List ClassId
  | .member owner _ _ raw => owner :: raw.classes
  | .type (.cls c) => [c]
  | .number owner _ => [owner]
  | .marker kind _ _ => [kind]
  | _ => []

theorem mem_of_lookup {α β : Type} [BEq α] [LawfulBEq α] {l : List (α × β)} {k : α} {v : β}
    (h : l.lookup k = some v) : (k, v) ∈ l := by
  induction l with
  | nil => cases h
  | cons a l ih =>
    rw [List.lookup_cons] at h
    split at h
    next hk =>
      cases h
      rw [eq_of_beq hk]
      exact List.mem_cons_self
    · exact List.mem_cons_of_mem _ (ih h)

namespace World

theorem hasModule_of_firstMissing {w : World} {before : Option String} {names : List String}
    (h : w.firstMissing before names = none) : ∀ name ∈ names, w.hasModule name = true := by
  induction names generalizing before with
  | nil => exact nofun
  | cons name rest ih =>
    rw [firstMissing] at h
    split_ifs at h with hname
    rintro n (_ | ⟨_, hn⟩)
    · exact hname
    · exact ih h n hn

theorem joined_mem_dottedHeads {parts : List (List Char)} (h : parts ≠ []) :
    String.ofList (Text.joined '.' parts) ∈ dottedHeads (parts.map String.ofList) := by
  induction parts with
  | nil => exact (h rfl).elim
  | cons p rest ih =>
    cases rest with
    | nil => exact List.mem_cons_self
    | cons q rest =>
      refine List.mem_cons_of_mem _ (List.mem_map.2 ⟨_, ih (List.cons_ne_nil _ _), ?_⟩)
      rw [Text.joined, ← String.toList_inj]
      simp

/-- A name can be imported only when its module is there. -/
theorem hasModule_of_import {w : World} {name found : String} (h : w.import? name = .ok found) :
    w.hasModule name = true := by
  unfold import? at h
  split_ifs at h with _ _ hname
  · exact hname
  · split at h
    next hmissing =>
      have hheads := hasModule_of_firstMissing hmissing name
      have hmem := joined_mem_dottedHeads (Text.pieces_ne_nil '.' name.toList)
      rw [Text.joined_pieces, String.ofList_toList] at hmem
      exact hheads hmem
    · cases h

theorem import_of_hasModule {w : World} {name : String} (hempty : name.isEmpty = false)
    (hdot : Text.startsWith "." name = false) (h : w.hasModule name = true) :
    w.import? name = .ok name := by
  rw [import?, hempty, hdot, if_neg Bool.false_ne_true, if_neg Bool.false_ne_true, if_pos h]

end World

/-- A module that is executed under two numbers. Besides its own classes it reaches only such classes
as have a number within a bound, and it does not touch some other modules. -/
structure Renumbering where
  module : String
  first : Nat
  second : Nat
  bound : Nat
  others : List String
  bound_lt_first : bound < first
  bound_lt_second : bound < second
  undotted : ∀ m ∈ others, '.' ∉ m.toList
  builtins : "builtins" ∉ others

namespace Renumbering

variable (ρ : Renumbering)

def Old (c : ClassId) : Prop := c.generation ≤ ρ.bound

/-- A class that the module declares. -/
def Own (c : ClassId) : Prop := c.moduleName = ρ.module ∧ c.generation = ρ.first

def Known (c : ClassId) : Prop := ρ.Old c ∨ ρ.Own c

def cls (c : ClassId) : ClassId :=
  if c.moduleName = ρ.module ∧ c.generation = ρ.first then { c with generation := ρ.second } else c

def entity : Entity → Entity
  | .cls c => .cls (ρ.cls c)
  | e => e

def info (i : ClassInfo) : ClassInfo :=
  { i with id := ρ.cls i.id, lineage := i.lineage.map ρ.cls }

def marker (m : Marker) : Marker := { m with kind := ρ.cls m.kind }

/-- What the module may come to see. -/
def Reaches : Entity → Prop
  | .cls c => ρ.Known c
  | .value v => ∀ c ∈ v.classes, ρ.Old c
  | .module m => m ∉ ρ.others
  | .other => True

/-- What the module may find in other modules. -/
def Outside : Entity → Prop
  | .cls c => ρ.Old c
  | e => ρ.Reaches e

variable {ρ}

theorem old_of_zero {c : ClassId} (h : c.generation = 0) : ρ.Old c := by
  unfold Old
  omega

theorem Old.known {c : ClassId} (h : ρ.Old c) : ρ.Known c := Or.inl h

theorem Old.not_own {c : ClassId} (h : ρ.Old c) : ¬ ρ.Own c := by
  intro hown
  have hbound := ρ.bound_lt_first
  have hfirst := hown.2
  unfold Old at h
  omega

theorem Old.cls_eq {c : ClassId} (h : ρ.Old c) : ρ.cls c = c := if_neg h.not_own

theorem Own.cls_eq {c : ClassId} (h : ρ.Own c) : ρ.cls c = { c with generation := ρ.second } :=
  if_pos h

/-- Different classes stay different. -/
theorem cls_inj {c d : ClassId} (hc : ρ.Known c) (hd : ρ.Known d) :
    ρ.cls c = ρ.cls d ↔ c = d := by
  refine ⟨fun h => ?_, fun h => h ▸ rfl⟩
  have hsecond := ρ.bound_lt_second
  rcases hc with hc | hc <;> rcases hd with hd | hd
  · rwa [hc.cls_eq, hd.cls_eq] at h
  · rw [hc.cls_eq, hd.cls_eq] at h
    rw [h, Old] at hc
    exact absurd hc (Nat.not_le.2 hsecond)
  · rw [hc.cls_eq, hd.cls_eq] at h
    rw [← h, Old] at hd
    exact absurd hd (Nat.not_le.2 hsecond)
  · rw [hc.cls_eq, hd.cls_eq] at h
    obtain ⟨cm, cq, cg⟩ := c
    obtain ⟨dm, dq, dg⟩ := d
    simp only [Own, ClassId.mk.injEq, and_true] at hc hd h ⊢
    exact ⟨h.1, h.2, hc.2.trans hd.2.symm⟩

theorem cls_eq_old {c d : ClassId} (hc : ρ.Known c) (hd : ρ.Old d) : ρ.cls c = d ↔ c = d := by
  rw [← cls_inj hc hd.known, hd.cls_eq]

theorem contains_map {l : List ClassId} {c : ClassId} (hl : ∀ d ∈ l, ρ.Known d)
    (hc : ρ.Known c) : (l.map ρ.cls).contains (ρ.cls c) = l.contains c := by
  rw [Bool.eq_iff_iff, List.contains_iff_mem, List.contains_iff_mem, List.mem_map]
  constructor
  · rintro ⟨d, hd, heq⟩
    rwa [← (cls_inj (hl d hd) hc).1 heq]
  · exact fun h => ⟨c, h, rfl⟩

theorem Outside.reaches {e : Entity} (h : ρ.Outside e) : ρ.Reaches e := by
  cases e with
  | cls c => exact Old.known h
  | _ => exact h

theorem Outside.entity_eq {e : Entity} (h : ρ.Outside e) : ρ.entity e = e := by
  cases e with
  | cls c => exact congrArg Entity.cls (Old.cls_eq h)
  | _ => rfl

/-- Two results of following a name: both missing, or the same but for the number. -/
def Agree (ρ : Renumbering) (o o' : Option Entity) : Prop :=
  o' = o.map ρ.entity ∧ ∀ e ∈ o, ρ.Reaches e

theorem Agree.some {e : Entity} (h : ρ.Reaches e) : ρ.Agree (some e) (some (ρ.entity e)) :=
  ⟨rfl, fun _ he => Option.mem_some.1 he ▸ h⟩

theorem Agree.same {o : Option Entity} (h : ∀ e ∈ o, ρ.Outside e) : ρ.Agree o o := by
  refine ⟨?_, fun e he => (h e he).reaches⟩
  cases o with
  | none => rfl
  | some e => exact congrArg Option.some (h e rfl).entity_eq.symm

theorem Agree.none : ρ.Agree none none := ⟨rfl, nofun⟩

/-- The worlds in which the module is executed the first and the second time. -/
structure Mirror (ρ : Renumbering) (w w' : World) : Prop where
  importable : w'.importable = w.importable
  modules : ∀ m, m ∉ ρ.others →
    (w'.module? m).map (·.attributes) = (w.module? m).map (·.attributes)
  attributes : ∀ m, m ∉ ρ.others → ∀ n, w.module? m = some n →
    ∀ a ∈ n.attributes, ρ.Outside a.2
  nested : ∀ c name, ρ.Known c →
    w'.nested.lookup (ρ.cls c, name) = w.nested.lookup (c, name)
  nestedOld : ∀ c name d, ρ.Known c → w.nested.lookup (c, name) = some d → ρ.Old d
  find : ∀ c, ρ.Known c → w'.find? (ρ.cls c) = (w.find? c).map ρ.info
  lineage : ∀ c i, ρ.Known c → w.find? c = some i → ∀ d ∈ i.lineage, ρ.Known d
  members : ∀ c i, ρ.Known c → w.find? c = some i →
    ∀ m ∈ i.members, ρ.Old c ∧ ∀ d ∈ m.2.classes, ρ.Old d
  markers : ∀ c, ρ.Known c → w'.markersOf (ρ.cls c) = (w.markersOf c).map ρ.marker
  kinds : ∀ c, ρ.Known c → ∀ m ∈ w.markersOf c, ρ.Known m.kind

namespace Mirror

variable {w w' : World} {c : ClassId}

theorem lineage_eq (h : ρ.Mirror w w') (hc : ρ.Known c) :
    w'.lineage (ρ.cls c) = (w.lineage c).map ρ.cls := by
  have hobject : ρ.cls ClassId.object = ClassId.object := (old_of_zero rfl).cls_eq
  unfold World.lineage
  rw [h.find c hc]
  cases w.find? c with
  | none => simp [hobject]
  | some i => rfl

theorem known_lineage (h : ρ.Mirror w w') (hc : ρ.Known c) : ∀ d ∈ w.lineage c, ρ.Known d := by
  intro d hd
  unfold World.lineage at hd
  split at hd
  next i hi => exact h.lineage c i hc hi d hd
  · rcases List.mem_cons.1 hd with rfl | hd
    · exact hc
    · rw [List.mem_singleton.1 hd]
      exact (old_of_zero rfl).known

theorem derives_eq (h : ρ.Mirror w w') (hc : ρ.Known c) {base : ClassId} (hbase : ρ.Old base) :
    w'.derives (ρ.cls c) base = w.derives c base := by
  have hcontains := contains_map (h.known_lineage hc) hbase.known
  rw [hbase.cls_eq] at hcontains
  rw [World.derives, h.lineage_eq hc, hcontains, World.derives]

theorem mixin_eq (h : ρ.Mirror w w') (hc : ρ.Old c) : w'.mixin c = w.mixin c := by
  have hderives (base : ClassId) (hbase : ρ.Old base) : w'.derives c base = w.derives c base := by
    have heq := h.derives_eq hc.known hbase
    rwa [hc.cls_eq] at heq
  rw [World.mixin, hderives _ (old_of_zero rfl), hderives _ (old_of_zero rfl), World.mixin]

theorem mem_of_memberNamed {members : List (String × Value)} {name label : String} {v : Value}
    (h : World.memberNamed? members name = some (label, v)) : ∃ m ∈ members, m.2 = v := by
  obtain ⟨v', hv, h₁⟩ := Option.bind_eq_some_iff.1 h
  obtain ⟨first, -, h₂⟩ := Option.bind_eq_some_iff.1 h₁
  cases h₂
  exact ⟨(name, v), mem_of_lookup hv, rfl⟩

theorem member_agree (h : ρ.Mirror w w') (hc : ρ.Known c) (name : String) :
    ρ.Agree ((w.member? c name).map .value) ((w'.member? (ρ.cls c) name).map .value) := by
  have hfind := h.find c hc
  unfold World.member?
  rcases hi : w.find? c with _ | i
  · rw [hfind, hi]
    exact .none
  · rw [hfind, hi]
    simp only [Option.map_some, bind, Option.bind_some, info]
    rcases hm : World.memberNamed? i.members name with _ | ⟨label, v⟩
    · exact .none
    · obtain ⟨m, hmem, rfl⟩ := mem_of_memberNamed hm
      obtain ⟨hold, hvalue⟩ := h.members c i hc hi m hmem
      simp only [hold.cls_eq, Option.bind_some, h.mixin_eq hold]
      refine .same fun e he => ?_
      cases he
      intro d hd
      rcases List.mem_cons.1 hd with rfl | hd
      · exact hold
      · exact hvalue d hd

theorem builtinNames_cls (hc : ρ.Known c) : World.builtinNames (ρ.cls c) = World.builtinNames c := by
  unfold World.builtinNames
  simp only [cls_eq_old hc (old_of_zero rfl : ρ.Old ClassId.str),
    cls_eq_old hc (old_of_zero rfl : ρ.Old ClassId.int),
    cls_eq_old hc (old_of_zero rfl : ρ.Old ClassId.decimal)]

theorem outside_default {d : FieldDefault} {v : Value} (h : d.value? = some v) :
    ρ.Outside (.value v) := by
  intro c hc
  cases d <;> cases h <;> simp [Value.classes, FieldDefault.noRefreshMode] at hc
  exact hc ▸ old_of_zero rfl

/-- What a class itself has under a name. -/
theorem ownAttribute_agree (h : ρ.Mirror w w') (hc : ρ.Known c) (name : String) :
    ρ.Agree (w.ownAttribute? c name) (w'.ownAttribute? (ρ.cls c) name) := by
  have hfind := h.find c hc
  have hmember := h.member_agree hc name
  unfold World.ownAttribute?
  rw [h.nested c name hc]
  rcases hn : w.nested.lookup (c, name) with _ | d
  · dsimp only
    rcases hv : w.member? c name with _ | v <;> rcases hv' : w'.member? (ρ.cls c) name with _ | v' <;>
      rw [hv, hv'] at hmember
    · rw [hfind]
      rcases w.find? c with _ | i
      · exact .none
      · simp only [Option.map_some, info, builtinNames_cls hc]
        rcases hdefault : (i.shape.bind fun s => s.fields.lookup name).bind FieldDefault.value?
          with _ | v
        · refine .same fun e he => ?_
          dsimp only at he
          split_ifs at he
          · cases he
            trivial
          · cases he
        · obtain ⟨d, -, hd⟩ := Option.bind_eq_some_iff.1 hdefault
          refine .same fun e he => ?_
          cases he
          exact outside_default hd
    · cases hmember.1
    · cases hmember.1
    · exact hmember
  · refine .same fun e he => ?_
    cases he
    exact h.nestedOld c name d hc hn

theorem findSome_agree {f f' : ClassId → Option Entity} {l : List ClassId}
    (h : ∀ d ∈ l, ρ.Agree (f d) (f' (ρ.cls d))) :
    ρ.Agree (l.findSome? f) ((l.map ρ.cls).findSome? f') := by
  induction l with
  | nil => exact .none
  | cons d l ih =>
    obtain ⟨hsame, hreaches⟩ := h d List.mem_cons_self
    rw [List.map_cons, List.findSome?_cons, List.findSome?_cons, hsame]
    rcases hd : f d with _ | e
    · exact ih fun d hd => h d (List.mem_cons_of_mem _ hd)
    · exact .some (hreaches e hd)

theorem isEnumeration_eq (h : ρ.Mirror w w') (hc : ρ.Known c) :
    w'.isEnumeration (ρ.cls c) = w.isEnumeration c := h.derives_eq hc (old_of_zero rfl)

theorem record_eq (h : ρ.Mirror w w') (hc : ρ.Known c) :
    (w'.find? (ρ.cls c)).bind (·.record) = (w.find? c).bind (·.record) := by
  rw [h.find c hc]
  cases w.find? c <;> rfl

theorem outside_none : ρ.Outside (.value .none) := nofun

/-- What a class answers with under a name, itself or by an ancestor. -/
theorem classAttribute_agree (h : ρ.Mirror w w') (hc : ρ.Known c) (name : String) :
    ρ.Agree (w.classAttribute? c name) (w'.classAttribute? (ρ.cls c) name) := by
  have hlineage := h.known_lineage hc
  have hown : ρ.Agree ((w.lineage c).findSome? fun d => w.ownAttribute? d name)
      ((w'.lineage (ρ.cls c)).findSome? fun d => w'.ownAttribute? d name) := by
    rw [h.lineage_eq hc]
    exact findSome_agree fun d hd => h.ownAttribute_agree (hlineage d hd) name
  unfold World.classAttribute?
  rcases hf : (w.lineage c).findSome? fun d => w.ownAttribute? d name with _ | e <;>
    rcases hf' : (w'.lineage (ρ.cls c)).findSome? fun d => w'.ownAttribute? d name with _ | e' <;>
    rw [hf, hf'] at hown
  · dsimp only
    rw [h.isEnumeration_eq hc, h.lineage_eq hc, h.record_eq hc]
    by_cases hclass : name = "__class__"
    · rw [if_pos hclass, if_pos hclass]
      refine .same fun e he => ?_
      cases he
      split_ifs <;> exact old_of_zero rfl
    rw [if_neg hclass, if_neg hclass]
    by_cases hbase : name = "__base__"
    · rw [if_pos hbase, if_pos hbase]
      rcases hl : w.lineage c with _ | ⟨first, _ | ⟨base, rest⟩⟩
      · exact .some outside_none
      · exact .some outside_none
      · exact .some (hlineage base (by simp [hl]))
    rw [if_neg hbase, if_neg hbase]
    refine .same fun e he => ?_
    split_ifs at he <;> cases he
    · trivial
    · exact outside_none
    · trivial
  · cases hown.1
  · cases hown.1
  · exact hown

theorem old_classOf {v : Value} (hv : ρ.Outside (.value v)) : ρ.Old (World.classOf v) := by
  cases v with
  | member owner => exact hv owner List.mem_cons_self
  | number owner => exact hv owner List.mem_cons_self
  | marker kind => exact hv kind List.mem_cons_self
  | type t => cases t <;> exact old_of_zero rfl
  | _ => exact old_of_zero rfl

/-- What a value answers with under a name. -/
theorem valueAttribute_agree (h : ρ.Mirror w w') {v : Value} (hv : ρ.Outside (.value v))
    (name : String) : ρ.Agree (w.valueAttribute? v name) (w'.valueAttribute? v name) := by
  have hclass := old_classOf hv
  unfold World.valueAttribute?
  split
  next c =>
    have hc : ρ.Old c := hv c List.mem_cons_self
    have hagree := h.classAttribute_agree hc.known name
    rwa [hc.cls_eq] at hagree
  next owner mixin label raw =>
    refine .same fun e he => ?_
    split_ifs at he <;> cases he
    · cases label <;> exact nofun
    · exact fun d hd => hv d (List.mem_cons_of_mem _ hd)
    · exact hclass
    · trivial
  · refine .same fun e he => ?_
    split_ifs at he <;> cases he
    · exact hclass
    · trivial

theorem hasModule_eq (h : ρ.Mirror w w') {m : String} (hm : m ∉ ρ.others) :
    w'.hasModule m = w.hasModule m := by
  have hmodule := congrArg Option.isSome (h.modules m hm)
  rw [Option.isSome_map, Option.isSome_map] at hmodule
  rw [World.hasModule, hmodule, h.importable, World.hasModule]

theorem dotted_not_mem (m name : String) : m ++ "." ++ name ∉ ρ.others := fun h =>
  ρ.undotted _ h (by simp)

/-- What anything that can be reached answers with under a name. -/
theorem attribute_agree (h : ρ.Mirror w w') {e : Entity} (he : ρ.Reaches e) (name : String) :
    ρ.Agree (w.attribute? e name) (w'.attribute? (ρ.entity e) name) := by
  cases e with
  | cls c => exact h.classAttribute_agree he name
  | value v => exact h.valueAttribute_agree he name
  | module m =>
    have hattributes : ((w'.module? m).bind fun n => n.attributes.lookup name) =
        (w.module? m).bind fun n => n.attributes.lookup name := by
      have hmodule := congrArg (Option.bind · fun l => l.lookup name) (h.modules m he)
      simpa only [Option.bind_map, Function.comp_def] using hmodule
    simp only [World.attribute?, entity]
    rw [hattributes, h.hasModule_eq (dotted_not_mem m name)]
    rcases hl : (w.module? m).bind fun n => n.attributes.lookup name with _ | e
    · refine .same fun e he => ?_
      dsimp only at he
      split_ifs at he <;> cases he
      · exact dotted_not_mem m name
      · trivial
    · obtain ⟨n, hn, hlookup⟩ := Option.bind_eq_some_iff.1 hl
      refine .same fun e' he' => ?_
      cases he'
      exact h.attributes m he n hn _ (mem_of_lookup hlookup)
  | other =>
    refine .same fun e he => ?_
    simp only [World.attribute?] at he
    split_ifs at he <;> cases he
    trivial

/-- What can be imported the first time can be imported the second time. -/
theorem import_ok (h : ρ.Mirror w w') {m found : String} (hm : m ∉ ρ.others)
    (himport : w.import? m = .ok found) : ∃ found', w'.import? m = .ok found' := by
  have hthere := World.hasModule_of_import himport
  rw [← h.hasModule_eq hm] at hthere
  unfold World.import? at himport
  split_ifs at himport with hempty hdot <;>
    exact ⟨m, World.import_of_hasModule (by simpa using hempty) (by simpa using hdot) hthere⟩

theorem shape_eq (h : ρ.Mirror w w') (hc : ρ.Known c) : w'.shape? (ρ.cls c) = w.shape? c := by
  have hlineage := h.known_lineage hc
  have hshape : ∀ d, ρ.Known d →
      (w'.find? (ρ.cls d)).bind (·.shape) = (w.find? d).bind (·.shape) := by
    intro d hd
    rw [h.find d hd]
    cases w.find? d <;> rfl
  rw [World.shape?, h.lineage_eq hc, World.shape?]
  generalize w.lineage c = l at hlineage
  induction l with
  | nil => rfl
  | cons d l ih =>
    rw [List.map_cons, List.findSome?_cons, List.findSome?_cons,
      hshape d (hlineage d List.mem_cons_self),
      ih fun e he => hlineage e (List.mem_cons_of_mem _ he)]

/-! Declaring a class of the module, and marking it. -/

theorem declare (h : ρ.Mirror w w') {i : ClassInfo} (hi : ρ.Own i.id)
    (hlineage : ∀ d ∈ i.lineage, ρ.Known d) (hbare : i.members = []) :
    ρ.Mirror { w with classes := w.classes ++ [i] }
      { w' with classes := w'.classes ++ [ρ.info i] } where
  importable := h.importable
  modules := h.modules
  attributes := h.attributes
  nested := h.nested
  nestedOld := h.nestedOld
  find d hd := by
    rw [World.find?_declared, World.find?_declared, h.find d hd]
    have hid : (ρ.info i).id = ρ.cls d ↔ i.id = d := cls_inj (Or.inr hi) hd
    cases w.find? d with
    | some j => rfl
    | none =>
      by_cases heq : i.id = d
      · simp [heq, hid.2 heq]
      · simp [heq, mt hid.1 heq]
  lineage d j hd hj := by
    rcases World.found_declared hj with hfind | rfl
    · exact h.lineage d j hd hfind
    · exact hlineage
  members d j hd hj := by
    rcases World.found_declared hj with hfind | rfl
    · exact h.members d j hd hfind
    · rw [hbare]
      exact nofun
  markers := h.markers
  kinds := h.kinds

theorem mark (h : ρ.Mirror w w') (hc : ρ.Known c) {m : Marker} (hm : ρ.Known m.kind) :
    ρ.Mirror (w.mark c m) (w'.mark (ρ.cls c) (ρ.marker m)) where
  importable := h.importable
  modules := h.modules
  attributes := h.attributes
  nested := h.nested
  nestedOld := h.nestedOld
  find := h.find
  lineage := h.lineage
  members := h.members
  markers d hd := by
    rw [World.markersOf_mark, World.markersOf_mark, h.markers c hc, h.markers d hd]
    by_cases hdc : d = c
    · rw [if_pos hdc, if_pos (congrArg ρ.cls hdc), List.map_append]
      rfl
    · rw [if_neg hdc, if_neg (mt (cls_inj hd hc).1 hdc)]
  kinds d hd n hn := by
    rw [World.markersOf_mark] at hn
    split_ifs at hn
    · rcases List.mem_append.1 hn with hn | hn
      · exact h.kinds c hc n hn
      · rwa [List.mem_singleton.1 hn]
    · exact h.kinds d hd n hn

end Mirror

end Renumbering

end ModelContracts
