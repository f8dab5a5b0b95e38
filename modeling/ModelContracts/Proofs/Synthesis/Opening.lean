import ModelContracts.Proofs.Synthesis.Failure

/-!
What the steps of a derivation do to the draft. Most of them only write: they leave the contracts
and the names as they are. Opening a contract either meets another class with the same name, or puts
a contract without members at the end of the list and records its name.
-/

namespace ModelContracts

/-- A class and the name that is asked for its contract. -/
abbrev Naming := ClassId × String

namespace Draft

/-- The classes that have contracts and the names of these, in the order in which they were opened. -/
def namings (d : Draft) : List Naming := d.contracts.map fun k => (k.backing, k.name)

/-- The two drafts differ in what was written only. -/
def SameContracts (d d' : Draft) : Prop :=
  d'.contracts = d.contracts ∧ d'.arena = d.arena ∧ d'.names = d.names

instance : IsPreorder Draft SameContracts where
  refl _ := ⟨rfl, rfl, rfl⟩
  trans _ _ _ h h' := ⟨h'.1.trans h.1, h'.2.1.trans h.2.1, h'.2.2.trans h.2.2⟩

/-- The two drafts have contracts of the same classes with the same names, in the same order. -/
def SameNamings (d d' : Draft) : Prop :=
  d'.namings = d.namings ∧ d'.arena = d.arena ∧ d'.names = d.names

instance : IsPreorder Draft SameNamings where
  refl _ := ⟨rfl, rfl, rfl⟩
  trans _ _ _ h h' := ⟨h'.1.trans h.1, h'.2.1.trans h.2.1, h'.2.2.trans h.2.2⟩

theorem SameContracts.sameNamings {d d' : Draft} (h : SameContracts d d') : SameNamings d d' :=
  ⟨by rw [namings, h.1, namings], h.2⟩

theorem namings_addMember (d : Draft) (i : Nat) (m : Member) :
    (d.addMember i m).namings = d.namings := by
  unfold namings addMember
  refine List.ext_getElem? fun j => ?_
  simp only [List.getElem?_map, List.getElem?_modify]
  cases d.contracts[j]? with
  | none => rfl
  | some k => by_cases h : i = j <;> simp [h, Contract.addMember]

theorem rival?_eq_some {d : Draft} {name : String} {c other : ClassId} :
    d.rival? name c = some other ↔ d.names.lookup name = some other ∧ other ≠ c := by
  simp [rival?, Option.filter_eq_some_iff]

/-! Drafts whose tables agree with the contracts on the list. -/

/-- The arena holds the places of the classes that have contracts, and the names table the classes
of the names of contracts. So no class has two contracts, and no two of them share a name. -/
structure Sound (d : Draft) : Prop where
  arena : ∀ c i, d.arena.lookup c = some i ↔ (d.namings[i]?).map Prod.fst = some c
  names : ∀ name c, d.names.lookup name = some c ↔ (c, name) ∈ d.namings

namespace Sound

variable {d : Draft}

theorem of_same {d' : Draft} (h : d.Sound) (hs : SameNamings d d') : d'.Sound where
  arena c i := by
    rw [hs.2.1, hs.1]
    exact h.arena c i
  names name c := by
    rw [hs.2.2, hs.1]
    exact h.names name c

theorem start (e : Emission) : Sound { emission := e } where
  arena c i := by simp [namings]
  names name c := by simp [namings]

theorem has_iff (h : d.Sound) {c : ClassId} : d.has c = true ↔ ∃ name, (c, name) ∈ d.namings := by
  rw [has, Option.isSome_iff_exists]
  constructor
  · rintro ⟨i, hi⟩
    obtain ⟨⟨_, name⟩, hn, rfl⟩ := Option.map_eq_some_iff.1 ((h.arena c i).1 hi)
    exact ⟨name, List.mem_of_getElem? hn⟩
  · rintro ⟨name, hn⟩
    obtain ⟨i, hi⟩ := List.mem_iff_getElem?.1 hn
    exact ⟨i, (h.arena c i).2 (by rw [hi]; rfl)⟩

/-- A class that has a contract has one place on the list. -/
theorem backings_nodup (h : d.Sound) : (d.contracts.map (·.backing)).Nodup := by
  refine List.pairwise_iff_getElem.2 fun i j hi hj hij heq => ?_
  have place (n : Nat) (hn : n < (d.contracts.map (·.backing)).length) :
      d.arena.lookup (d.contracts.map (·.backing))[n] = some n := by
    refine (h.arena _ _).2 ?_
    rw [List.length_map] at hn
    simp [namings, hn]
  have hp := place i hi
  rw [heq, place j hj] at hp
  have hsame : j = i := Option.some.inj hp
  omega

/-- A name belongs to one class. -/
theorem class_unique (h : d.Sound) {a b : ClassId} {name : String} (ha : (a, name) ∈ d.namings)
    (hb : (b, name) ∈ d.namings) : a = b := by
  have ha' := (h.names name a).2 ha
  have hb' := (h.names name b).2 hb
  exact Option.some.inj (ha'.symm.trans hb')

theorem contract?_eq_some (h : d.Sound) {c : ClassId} {k : Contract} :
    d.contract? c = some k ↔ k ∈ d.contracts ∧ k.backing = c := by
  have place (i : Nat) (hi : d.contracts[i]? = some k) :
      d.arena.lookup k.backing = some i := by
    refine (h.arena _ _).2 ?_
    simp [namings, hi]
  rw [contract?, Option.bind_eq_some_iff]
  constructor
  · rintro ⟨i, hi, hk⟩
    have hc := (h.arena c i).1 hi
    simp only [namings, List.getElem?_map, hk, Option.map_some, Option.some.injEq] at hc
    exact ⟨List.mem_of_getElem? hk, hc⟩
  · rintro ⟨hk, rfl⟩
    obtain ⟨i, hi⟩ := List.mem_iff_getElem?.1 hk
    exact ⟨i, place i hi, hi⟩

theorem opened (h : d.Sound) {k : Contract} {e : Emission} (hc : d.has k.backing = false)
    (hr : d.rival? k.name k.backing = none) :
    Sound { emission := e, contracts := d.contracts ++ [k]
            arena := setEntry k.backing d.contracts.length d.arena
            names := setEntry k.name k.backing d.names } where
  arena c i := by
    have hnew : ∀ j : Nat, (d.namings[j]?).map Prod.fst ≠ some k.backing := by
      intro j hj
      have hl := (h.arena _ _).2 hj
      simp [has, hl] at hc
    simp only [lookup_setEntry, namings, List.map_append, List.map_cons, List.map_nil]
    rcases Nat.lt_trichotomy i d.contracts.length with hi | rfl | hi
    · rw [List.getElem?_append_left (by simpa using hi)]
      have hold := h.arena c i
      have hother := hnew i
      simp only [namings] at hold hother
      split_ifs with hk
      · subst hk
        simp only [hother, iff_false, Option.some.injEq]
        omega
      · exact hold
    · have hlast : (d.contracts.map fun k => (k.backing, k.name))[d.contracts.length]? = none := by
        simp
      have hold := h.arena c d.contracts.length
      simp only [namings, hlast] at hold
      rw [List.getElem?_append_right (by simp)]
      split_ifs with hk
      · simp [hk]
      · simpa [hold] using Ne.symm hk
    · have hold := h.arena c i
      simp only [namings] at hold
      rw [List.getElem?_eq_none (by simp; omega)] at hold ⊢
      split_ifs with hk
      · simp
        omega
      · exact hold
  names name c := by
    -- The name is free: its class would be a rival, or have a contract already.
    have hfree : d.names.lookup k.name = none := by
      cases hl : d.names.lookup k.name with
      | none => rfl
      | some other =>
        by_cases ho : other = k.backing
        · subst ho
          have hhas := h.has_iff.2 ⟨_, (h.names _ _).1 hl⟩
          rw [hc] at hhas
          cases hhas
        · rw [rival?_eq_some.2 ⟨hl, ho⟩] at hr
          cases hr
    have hmem : (c, name) ∈ (d.contracts ++ [k]).map (fun k => (k.backing, k.name)) ↔
        (c, name) ∈ d.namings ∨ c = k.backing ∧ name = k.name := by
      simp [namings, eq_comm]
    rw [namings, hmem, ← h.names, lookup_setEntry]
    split_ifs with hn
    · subst hn
      simp [hfree, eq_comm]
    · simp [hn]

end Sound

end Draft

open EmissionError Draft

/-! Steps that write and cannot fail. -/

/-- Every run succeeds and changes nothing but what is written. -/
def Writes {α : Type} (m : Synthesis α) : Prop :=
  ∀ d, ∃ a e, m.run d = (.ok a, { d with emission := e })

namespace Writes

variable {α β : Type} {m : Synthesis α}

theorem pure (a : α) : Writes (pure a : Synthesis α) := fun d => ⟨a, d.emission, rfl⟩

theorem bind {f : α → Synthesis β} (hm : Writes m) (hf : ∀ a, Writes (f a)) :
    Writes (m >>= f) := by
  intro d
  obtain ⟨a, e, h⟩ := hm d
  obtain ⟨b, e', h'⟩ := hf a { d with emission := e }
  exact ⟨b, e', by rw [run_bind_of_ok h, h']⟩

theorem emitting {m : Emitting α} (h : ∀ e, ∃ a e', m.run e = (.ok a, e')) :
    Writes (Synthesis.emitting m) := by
  intro d
  obtain ⟨a, e, he⟩ := h d.emission
  refine ⟨a, e, ?_⟩
  simp only [Synthesis.emitting, ExceptT.run] at he ⊢
  rw [he]

end Writes

namespace Synthesizer

variable (s : Synthesizer)

theorem cls_writes (c : ClassId) : Writes (s.cls c) :=
  Writes.emitting fun e => Emitting.cls_succeeds s.world c e

theorem reserve_writes (name : String) : Writes (Synthesis.emitting (Emitting.reserve name)) :=
  Writes.emitting fun e => ⟨_, Emitting.reserve_succeeds name e⟩

theorem log_writes (r : LogRecord) : Writes (Synthesis.log r) :=
  Writes.emitting fun _ => ⟨_, _, rfl⟩

theorem headerLines_writes (c : ClassId) (isAbstract : Bool) :
    Writes (s.headerLines c isAbstract) := by
  refine (s.cls_writes _).bind fun _ => ?_
  split_ifs
  · exact (s.cls_writes _).bind fun _ => .pure _
  · exact .pure _

/-! Opening a contract. -/

theorem openContract_taken {c : Component} {around : Option String} {d : Draft} {other : ClassId}
    (h : d.rival? (s.contractName c.type around) c.type = some other) :
    (s.openContract c around).run d =
      (.error (.nameConflict (s.contractName c.type around) other c.type), d) := by
  have hclaim : (claimName (s.contractName c.type around) c.type).run d =
      (.error (.nameConflict (s.contractName c.type around) other c.type), d) := by
    unfold claimName
    rw [run_bind, run_get]
    dsimp only
    rw [h]
    rfl
  exact run_bind_of_error hclaim

theorem openContract_free {c : Component} {around : Option String} {d : Draft}
    (h : d.rival? (s.contractName c.type around) c.type = none) :
    ∃ k e, k.backing = c.type ∧ k.name = s.contractName c.type around ∧ k.members = [] ∧
      (s.openContract c around).run d = (.ok (d.contracts.length, s.contractName c.type around),
        { emission := e, contracts := d.contracts ++ [k]
          arena := setEntry c.type d.contracts.length d.arena
          names := setEntry (s.contractName c.type around) c.type d.names }) := by
  have hclaim : (claimName (s.contractName c.type around) c.type).run d =
      (.ok ⟨⟩, { d with names := setEntry (s.contractName c.type around) c.type d.names }) := by
    unfold claimName
    rw [run_bind, run_get]
    dsimp only
    rw [h]
    rfl
  unfold openContract
  rw [run_bind_of_ok hclaim]
  obtain ⟨_, e₁, h₁⟩ := reserve_writes (s.contractName c.type around)
    { d with names := setEntry (s.contractName c.type around) c.type d.names }
  obtain ⟨_, e₂, h₂⟩ := s.cls_writes c.type _
  rw [run_bind_of_ok h₁, run_bind_of_ok h₂]
  obtain ⟨header, e₃, h₃⟩ := s.headerLines_writes c.type c.isAbstract _
  rw [run_bind_of_ok h₃]
  obtain ⟨base, e₄, h₄⟩ := s.cls_writes (if around.isNone then c.rootBase.getD c.base else c.base) _
  rw [run_bind_of_ok h₄, run_bind_of_ok (run_get _), run_bind_of_ok (run_modify _ _)]
  obtain ⟨_, e₅, h₅⟩ := log_writes _ _
  rw [run_bind_of_ok h₅]
  exact ⟨_, e₅, rfl, rfl, rfl, rfl⟩

theorem has_openContract {c : Component} {around : Option String} {d d' : Draft} {a : Nat × String}
    (h : (s.openContract c around).run d = (.ok a, d')) (c' : ClassId) :
    d'.has c' = (decide (c' = c.type) || d.has c') := by
  cases hr : d.rival? (s.contractName c.type around) c.type with
  | some other =>
    rw [s.openContract_taken hr] at h
    cases h
  | none =>
    obtain ⟨k, e, -, -, -, hopen⟩ := s.openContract_free hr
    rw [hopen] at h
    cases h
    by_cases hc : c' = c.type <;> simp [has, lookup_setEntry, hc]

/-! Making a member. -/

theorem emitting_keeps {α : Type} (m : Emitting α) :
    Keeps SameContracts (Synthesis.emitting m) := fun _ => ⟨rfl, rfl, rfl⟩

theorem type_textual (t : TypeExpr) : FailsWith IsTextual (s.type t) :=
  Synthesis.emitting_failsWith (Emitting.type_textual s.world t)

theorem valueText_keeps (t : TypeExpr) : Keeps SameContracts (s.valueText t) := by
  unfold valueText
  split_ifs
  · exact emitting_keeps _
  · exact (emitting_keeps _).bind fun _ => emitting_keeps _

theorem valueText_textual (t : TypeExpr) : FailsWith IsTextual (s.valueText t) := by
  unfold valueText
  split_ifs
  · exact s.type_textual t
  · exact (Synthesis.emitting_failsWith (Emitting.nullable_textual t)).bind fun u =>
      s.type_textual u

theorem memberType_keeps (p : Descriptor) : Keeps SameContracts (s.memberType p) := by
  unfold memberType
  split
  · exact emitting_keeps _
  · split
    · refine Keeps.get.bind fun d => ?_
      split
      · exact .pure _
      · exact emitting_keeps _
    · split
      · exact s.valueText_keeps _
      · exact emitting_keeps _

theorem memberType_textual (p : Descriptor) : FailsWith IsTextual (s.memberType p) := by
  unfold memberType
  split
  · exact s.type_textual _
  · split
    · refine FailsWith.get.bind fun d => ?_
      split
      · exact .pure _
      · exact s.type_textual _
    · split
      · exact s.valueText_textual _
      · exact s.type_textual _

theorem member_keeps (p : Descriptor) : Keeps SameContracts (s.member p) :=
  (s.memberType_keeps p).bind fun _ => (emitting_keeps _).bind fun _ => .pure _

theorem member_textual (p : Descriptor) : FailsWith IsTextual (s.member p) :=
  (s.memberType_textual p).bind fun _ =>
    (Synthesis.emitting_failsWith (translateAll_textual s.world s.book p)).bind fun _ => .pure _

/-- A member that refers to a node has the name of the contract of the node's class. -/
theorem memberType_of_contract {p : Descriptor} {c : ClassId} {d d' : Draft} {text : String}
    (hp : s.nestedClass? p = some c) (hn : p.has s.world MarkerShape.nullValue.kind = false)
    (hs : d.Sound) (hd : d.has c = true) (h : (s.memberType p).run d = (.ok text, d')) :
    (c, text) ∈ d.namings := by
  obtain ⟨name, hname⟩ := hs.has_iff.1 hd
  obtain ⟨k, hmem, hback⟩ := List.mem_map.1 hname
  have hbacking : k.backing = c := congrArg Prod.fst hback
  have hk : d.contract? c = some k := hs.contract?_eq_some.2 ⟨hmem, hbacking⟩
  unfold memberType at h
  simp only [hn, hp, Bool.false_eq_true, if_false] at h
  rw [run_bind_of_ok (run_get _), hk] at h
  cases h
  exact List.mem_map.2 ⟨k, hmem, Prod.ext hbacking rfl⟩

theorem member_ok {p : Descriptor} {d d' : Draft} {m : Member} (hs : d.Sound)
    (h : (s.member p).run d = (.ok m, d')) :
    m.name = p.name ∧ ∀ c, s.nestedClass? p = some c →
      p.has s.world MarkerShape.nullValue.kind = false → d.has c = true →
      (c, m.typeText) ∈ d.namings := by
  obtain ⟨text, d₁, ht, h₁⟩ := run_bind_ok h
  obtain ⟨annotations, d₂, -, h₂⟩ := run_bind_ok h₁
  cases h₂
  exact ⟨rfl, fun c hp hn hd => s.memberType_of_contract hp hn hs hd ht⟩

end Synthesizer

end ModelContracts
