import Mathlib.Data.List.Forall2
import Mathlib.Logic.Relation
import ModelContracts.Proofs.Synthesis.Naming

/-!
The members that a derivation writes. When it succeeds, each new contract has one member for the first
accepted descriptor of each name, in order, every node that these refer to has a contract on the list,
and nothing else is on it than what the components lead to in this way. A contract is filled while the ones it reaches are derived, so what is said about a contract is
kept when the list grows.
-/

namespace ModelContracts

open EmissionError Draft Emitting

/-- The descriptors that are first with their names. -/
def firstNamed : List Descriptor → List String → List Descriptor
  | [], _ => []
  | p :: rest, seen =>
    if seen.contains p.name then firstNamed rest seen
    else p :: firstNamed rest (p.name :: seen)

theorem firstNamed_names (ds : List Descriptor) (seen : List String) :
    ((firstNamed ds seen).map (·.name)).Nodup ∧ ∀ p ∈ firstNamed ds seen, p.name ∉ seen := by
  induction ds generalizing seen with
  | nil => simp [firstNamed]
  | cons p rest ih =>
    unfold firstNamed
    split_ifs with hp
    · exact ih seen
    · obtain ⟨hnodup, hnew⟩ := ih (p.name :: seen)
      refine ⟨List.nodup_cons.2 ⟨fun hmem => ?_, hnodup⟩, fun q hq => ?_⟩
      · obtain ⟨q, hq, hname⟩ := List.mem_map.1 hmem
        exact hnew q hq (hname ▸ List.mem_cons_self)
      · rcases List.mem_cons.1 hq with rfl | hq
        · simpa using hp
        · exact fun hseen => hnew q hq (List.mem_cons_of_mem _ hseen)

theorem modify_length_append {α : Type} (f : α → α) (before after : List α) (a : α) :
    (before ++ a :: after).modify before.length f = before ++ f a :: after := by
  induction before with
  | nil => rfl
  | cons b before ih => simp [ih]

namespace Synthesizer

variable (s : Synthesizer)

/-- A member that was made for a descriptor, when the contracts are those of the namings. -/
structure Fits (namings : List Naming) (p : Descriptor) (m : Member) : Prop where
  name : m.name = p.name
  reached : ∀ c, s.nestedClass? p = some c → ∃ name, (c, name) ∈ namings
  typed : ∀ c, s.nestedClass? p = some c → p.has s.world MarkerShape.nullValue.kind = false →
    (c, m.typeText) ∈ namings

/-- A contract that has all its members. -/
def Filled (filter : PropertyFilter) (namings : List Naming) (k : Contract) : Prop :=
  ∃ ds, s.accepted k.backing filter = .ok ds ∧
    List.Forall₂ (s.Fits namings) (firstNamed ds []) k.members

/-- An accepted property of the first class has the second one as the class of its node. -/
def Refers (filter : PropertyFilter) (c c' : ClassId) : Prop :=
  ∃ ds p, s.accepted c filter = .ok ds ∧ p ∈ ds ∧ s.nestedClass? p = some c'

/-- A contract that is derived because of a class. -/
structure DerivedFrom (filter : PropertyFilter) (source : ClassId) (namings : List Naming)
    (k : Contract) : Prop where
  filled : s.Filled filter namings k
  reached : Relation.ReflTransGen (s.Refers filter) source k.backing

variable {s}

theorem Fits.mono {ns ns' : List Naming} {p : Descriptor} {m : Member} (h : s.Fits ns p m)
    (hsub : ns ⊆ ns') : s.Fits ns' p m where
  name := h.name
  reached c hp := by
    obtain ⟨name, hname⟩ := h.reached c hp
    exact ⟨name, hsub hname⟩
  typed c hp hn := hsub (h.typed c hp hn)

theorem Fits.names {ns : List Naming} {ds : List Descriptor} {ms : List Member}
    (h : List.Forall₂ (s.Fits ns) ds ms) : ms.map (·.name) = ds.map (·.name) := by
  induction h with
  | nil => rfl
  | cons hf _ ih => rw [List.map_cons, List.map_cons, hf.name, ih]

theorem Fits.reached_of_mem {ns : List Naming} {ds : List Descriptor} {ms : List Member}
    (h : List.Forall₂ (s.Fits ns) ds ms) {p : Descriptor} (hp : p ∈ ds) {c : ClassId}
    (hc : s.nestedClass? p = some c) : ∃ name, (c, name) ∈ ns := by
  induction h with
  | nil => cases hp
  | cons hfit _ ih =>
    rcases List.mem_cons.1 hp with rfl | hp
    · exact hfit.reached c hc
    · exact ih hp

theorem Filled.mono {filter : PropertyFilter} {ns ns' : List Naming} {k : Contract}
    (h : s.Filled filter ns k) (hsub : ns ⊆ ns') : s.Filled filter ns' k := by
  obtain ⟨ds, hds, hfit⟩ := h
  exact ⟨ds, hds, hfit.imp fun _ _ hf => hf.mono hsub⟩

/-- The members of a contract have different names. -/
theorem Filled.memberNames_nodup {filter : PropertyFilter} {ns : List Naming} {k : Contract}
    (h : s.Filled filter ns k) : k.memberNames.Nodup := by
  obtain ⟨ds, -, hfit⟩ := h
  rw [Contract.memberNames, Fits.names hfit]
  exact (firstNamed_names ds []).1

theorem DerivedFrom.mono {filter : PropertyFilter} {source : ClassId} {ns ns' : List Naming}
    {k : Contract} (h : s.DerivedFrom filter source ns k) (hsub : ns ⊆ ns') :
    s.DerivedFrom filter source ns' k := ⟨h.filled.mono hsub, h.reached⟩

theorem DerivedFrom.head {filter : PropertyFilter} {c c' : ClassId} {ns : List Naming}
    {k : Contract} (hc : s.Refers filter c c') (h : s.DerivedFrom filter c' ns k) :
    s.DerivedFrom filter c ns k := ⟨h.filled, h.reached.head hc⟩

section

variable (s)
variable {create : Component → Option String → Synthesis Nat}

/-- Deriving the contract of a class that has none puts it on the list, with those that it leads to
behind it. -/
def Fills (create : Component → Option String → Synthesis Nat) : Prop :=
  ∀ ⦃c around d place d'⦄, d.Sound → d.has c.type = false →
    (create c around).run d = (.ok place, d') →
    d'.Sound ∧ ∃ k more, d'.contracts = d.contracts ++ k :: more ∧ k.backing = c.type ∧
      ∀ k' ∈ k :: more, s.DerivedFrom c.filter c.type d'.namings k'

theorem createNested_ok (h : s.Fills create) {c : Component} {name : String} {p : Descriptor}
    {d d' : Draft} (hd : d.Sound)
    (hp : ∀ c', s.nestedClass? p = some c' → s.Refers c.filter c.type c')
    (hr : (s.createNested create c name p).run d = (.ok ⟨⟩, d')) :
    d'.Sound ∧ (∀ c', s.nestedClass? p = some c' → d'.has c' = true) ∧
      ∃ more, d'.contracts = d.contracts ++ more ∧
        ∀ k ∈ more, s.DerivedFrom c.filter c.type d'.namings k := by
  unfold createNested at hr
  cases hn : s.nestedClass? p with
  | none =>
    rw [hn] at hr
    cases hr
    exact ⟨hd, by simp, [], by simp, by simp⟩
  | some nested =>
    rw [hn] at hr
    dsimp only at hr
    rw [run_bind, run_get] at hr
    dsimp only at hr
    cases hhas : d.has nested with
    | true =>
      rw [hhas] at hr
      cases hr
      refine ⟨hd, fun c' hc' => ?_, [], by simp, by simp⟩
      cases hc'
      exact hhas
    | false =>
      rw [hhas] at hr
      obtain ⟨place, d₁, hcreate, hr⟩ := run_bind_ok hr
      cases hr
      obtain ⟨hd', k, more, hat, hback, hderived⟩ := h hd hhas hcreate
      refine ⟨hd', fun c' hc' => ?_, k :: more, hat, fun k' hk' => ?_⟩
      · cases hc'
        refine hd'.has_iff.2 ⟨k.name, List.mem_map.2 ⟨k, ?_, by rw [hback]; rfl⟩⟩
        simp [hat]
      · exact (hderived k' hk').head (hp nested hn)

theorem member_fits {p : Descriptor} {d d' : Draft} {m : Member} (hd : d.Sound)
    (hreached : ∀ c, s.nestedClass? p = some c → d.has c = true)
    (hr : (s.member p).run d = (.ok m, d')) : s.Fits d.namings p m := by
  obtain ⟨hname, htype⟩ := s.member_ok hd hr
  exact ⟨hname, fun c hc => hd.has_iff.1 (hreached c hc),
    fun c hc hn => htype c hc hn (hreached c hc)⟩

/-- The contract at a place gets the member; all that is derived for it goes behind the others. -/
theorem addMember_ok (h : s.Fills create) {c : Component} {name : String} {p : Descriptor}
    {d d' : Draft} {before after : List Contract} {k : Contract} (hd : d.Sound)
    (hp : ∀ c', s.nestedClass? p = some c' → s.Refers c.filter c.type c')
    (hat : d.contracts = before ++ k :: after)
    (hr : (s.addMember create c before.length name p).run d = (.ok ⟨⟩, d')) :
    d'.Sound ∧ ∃ m more, d'.contracts = before ++ k.addMember m :: (after ++ more) ∧
      s.Fits d'.namings p m ∧ ∀ k' ∈ more, s.DerivedFrom c.filter c.type d'.namings k' := by
  obtain ⟨_, d₁, hnested, hr⟩ := run_bind_ok hr
  obtain ⟨m, d₂, hmember, hr⟩ := run_bind_ok hr
  cases hr
  obtain ⟨hd₁, hreached, more, hat₁, hmore⟩ := s.createNested_ok h hd hp hnested
  have hsame : SameContracts d₁ d₂ := (s.member_keeps p).of_run hmember
  have hnamings : (d₂.addMember before.length m).namings = d₁.namings := by
    rw [namings_addMember, hsame.sameNamings.1]
  refine ⟨hd₁.of_same ⟨hnamings, hsame.2⟩, m, more, ?_, ?_, ?_⟩
  · simp only [Draft.addMember]
    rw [hsame.1, hat₁, hat, List.append_assoc, List.cons_append, modify_length_append]
  · rw [hnamings]
    exact s.member_fits hd₁ hreached hmember
  · rw [hnamings]
    exact hmore

theorem addMembers_ok (h : s.Fills create) {c : Component} {name : String} {ds : List Descriptor}
    {seen : List String} {d d' : Draft} {before after : List Contract} {k : Contract}
    (hd : d.Sound) (hds : ∀ p ∈ ds, ∀ c', s.nestedClass? p = some c' →
      s.Refers c.filter c.type c')
    (hat : d.contracts = before ++ k :: after)
    (hr : (s.addMembers create c before.length name ds seen).run d = (.ok ⟨⟩, d')) :
    d'.Sound ∧ ∃ ms more,
      d'.contracts = before ++ { k with members := k.members ++ ms } :: (after ++ more) ∧
      List.Forall₂ (s.Fits d'.namings) (firstNamed ds seen) ms ∧
      ∀ k' ∈ more, s.DerivedFrom c.filter c.type d'.namings k' := by
  induction ds generalizing seen d after k with
  | nil =>
    cases hr
    exact ⟨hd, [], [], by simp [hat], .nil, by simp⟩
  | cons p rest ih =>
    have hrest := fun q hq => hds q (List.mem_cons_of_mem p hq)
    unfold addMembers at hr
    unfold firstNamed
    split_ifs at hr ⊢ with hp
    · exact ih hd hrest hat hr
    · obtain ⟨_, d₁, hadd, hr⟩ := run_bind_ok hr
      obtain ⟨hd₁, m, more₁, hat₁, hfit, hmore₁⟩ :=
        s.addMember_ok h hd (hds p List.mem_cons_self) hat hadd
      obtain ⟨hd', ms, more, hat', hfits, hmore⟩ := ih hd₁ hrest hat₁ hr
      have hsub : d₁.namings ⊆ d'.namings := by
        intro n hn
        simp only [namings, hat₁] at hn
        simp only [namings, hat']
        simp only [List.map_append, List.map_cons, List.mem_append, List.mem_cons] at hn ⊢
        tauto
      refine ⟨hd', m :: ms, more₁ ++ more, ?_, .cons (hfit.mono hsub) hfits, fun k' hk' => ?_⟩
      · simp [hat', Contract.addMember]
      · rcases List.mem_append.1 hk' with hk' | hk'
        · exact (hmore₁ k' hk').mono hsub
        · exact hmore k' hk'

end

variable (s)

/-! What was run when a part of a derivation has succeeded. -/

theorem create_ok {fuel : Nat} {c : Component} {around : Option String} {place : Nat} {d d' : Draft}
    (hr : (s.create (fuel + 1) c around).run d = (.ok place, d')) :
    ∃ name d₁ ds, (s.openContract c around).run d = (.ok (place, name), d₁) ∧
      s.accepted c.type c.filter = .ok ds ∧
      (s.addMembers (s.create fuel) c place name ds []).run d₁ = (.ok ⟨⟩, d') := by
  obtain ⟨⟨place', name⟩, d₁, hopen, hr⟩ := run_bind_ok hr
  rcases ha : s.accepted c.type c.filter with e | ds
  · simp only [ha] at hr
    cases hr
  · simp only [ha] at hr
    obtain ⟨_, d₂, hmembers, hr⟩ := run_bind_ok hr
    cases hr
    exact ⟨name, d₁, ds, hopen, rfl, hmembers⟩

/-- A component whose class has a contract adds none. -/
theorem addComponent_cases {c : Component} {d d' : Draft}
    (hr : (s.addComponent c).run d = (.ok ⟨⟩, d')) :
    ∃ d₁, (c.referenceTypes.forM fun t => discard (s.type t)).run d = (.ok ⟨⟩, d₁) ∧
      SameContracts d d₁ ∧ (d₁.has c.type = true ∧ SameContracts d₁ d' ∨
        d₁.has c.type = false ∧ ∃ place, (s.create s.depth c none).run d₁ = (.ok place, d')) := by
  obtain ⟨_, d₁, hrefs, hr⟩ := run_bind_ok hr
  refine ⟨d₁, hrefs, (Keeps.forM (fun t => (emitting_keeps _).map) _).of_run hrefs, ?_⟩
  rw [run_bind, run_get] at hr
  dsimp only at hr
  split_ifs at hr with hhas
  · exact Or.inl ⟨hhas, (emitting_keeps _).of_run hr⟩
  · obtain ⟨place, d₂, hcreate, hr⟩ := run_bind_ok hr
    cases hr
    exact Or.inr ⟨Bool.eq_false_iff.2 hhas, place, hcreate⟩

theorem synthesize_runs {cs : List Component} {d d' : Draft} {b : Blueprint}
    (hr : (s.synthesize cs).run d = (.ok b, d')) :
    ∃ d₁ text, (cs.forM s.addComponent).run d = (.ok ⟨⟩, d₁) ∧
      (Synthesis.emitting (Emitting.recording (Recording.form "Annotated"))).run d₁ =
        (.ok text, d') ∧
      b = { stem := s.stem, version := s.version, contracts := d'.contracts
            importLines := d'.emission.ledger.importLines
            references := d'.emission.ledger.references, annotatedText := text } := by
  obtain ⟨_, d₁, hadd, hr⟩ := run_bind_ok hr
  obtain ⟨text, d₂, hemit, hr⟩ := run_bind_ok hr
  rw [run_bind, run_get] at hr
  cases hr
  exact ⟨d₁, text, hadd, hemit, rfl⟩

theorem create_fills (fuel : Nat) : s.Fills (s.create fuel) := by
  induction fuel with
  | zero =>
    intro c around d place d' _ _ hr
    cases hr
  | succ fuel ih =>
    intro c around d place d' hd hc hr
    obtain ⟨name, d₁, ds, hopen, ha, hmembers⟩ := s.create_ok hr
    have hd₁ : d₁.Sound := by
      have hg := (s.given_openContract c around hd hc).sound
      rwa [hopen] at hg
    cases hrival : d.rival? (s.contractName c.type around) c.type with
    | some other =>
      rw [s.openContract_taken hrival] at hopen
      cases hopen
    | none =>
      obtain ⟨k, e, hback, hname, hempty, hrun⟩ := s.openContract_free hrival
      rw [hopen] at hrun
      cases hrun
      obtain ⟨hd', ms, more, hat, hfits, hmore⟩ :=
        s.addMembers_ok ih hd₁ (fun p hp c' hc' => ⟨ds, p, ha, hp, hc'⟩) rfl hmembers
      refine ⟨hd', { k with members := ms }, more, by simpa [hempty] using hat, hback,
        fun k' hk' => ?_⟩
      rcases List.mem_cons.1 hk' with rfl | hk'
      · exact ⟨⟨ds, by rw [hback]; exact ha, hfits⟩, by rw [hback]⟩
      · exact hmore k' hk'

theorem addComponent_ok {c : Component} {d d' : Draft} (hd : d.Sound)
    (hr : (s.addComponent c).run d = (.ok ⟨⟩, d')) :
    d'.Sound ∧ d'.has c.type = true ∧ ∃ more, d'.contracts = d.contracts ++ more ∧
      ∀ k ∈ more, s.DerivedFrom c.filter c.type d'.namings k := by
  obtain ⟨d₁, -, hsame, hcases⟩ := s.addComponent_cases hr
  have hd₁ := hd.of_same hsame.sameNamings
  rcases hcases with ⟨hhas, hlog⟩ | ⟨hhas, place, hcreate⟩
  · refine ⟨hd₁.of_same hlog.sameNamings, ?_, [], by rw [hlog.1, hsame.1, List.append_nil], by simp⟩
    rw [has, hlog.2.1]
    exact hhas
  · obtain ⟨hd', k, more, hat, hback, hderived⟩ := s.create_fills _ hd₁ hhas hcreate
    refine ⟨hd', ?_, k :: more, by rw [hat, hsame.1], hderived⟩
    refine hd'.has_iff.2 ⟨k.name, List.mem_map.2 ⟨k, ?_, by rw [hback]⟩⟩
    simp [hat]

theorem addComponents_ok {cs : List Component} {d d' : Draft} (hd : d.Sound)
    (hr : (cs.forM s.addComponent).run d = (.ok ⟨⟩, d')) :
    d'.Sound ∧ (∀ c ∈ cs, d'.has c.type = true) ∧ ∃ more, d'.contracts = d.contracts ++ more ∧
      ∀ k ∈ more, ∃ c ∈ cs, s.DerivedFrom c.filter c.type d'.namings k := by
  induction cs generalizing d with
  | nil =>
    cases hr
    exact ⟨hd, by simp, [], by simp, by simp⟩
  | cons c rest ih =>
    obtain ⟨_, d₁, hadd, hr⟩ := run_bind_ok hr
    obtain ⟨hd₁, hhas, more₁, hat₁, hmore₁⟩ := s.addComponent_ok hd hadd
    obtain ⟨hd', hall, more, hat, hmore⟩ := ih hd₁ hr
    have hsub : d₁.namings ⊆ d'.namings := by
      unfold namings
      rw [hat, List.map_append]
      exact List.subset_append_left _ _
    refine ⟨hd', fun c' hc' => ?_, more₁ ++ more, by rw [hat, hat₁, List.append_assoc], ?_⟩
    · rcases List.mem_cons.1 hc' with rfl | hc'
      · obtain ⟨name, hname⟩ := hd₁.has_iff.1 hhas
        exact hd'.has_iff.2 ⟨name, hsub hname⟩
      · exact hall c' hc'
    · intro k hk
      rcases List.mem_append.1 hk with hk | hk
      · exact ⟨c, List.mem_cons_self, (hmore₁ k hk).mono hsub⟩
      · obtain ⟨c', hc', hk⟩ := hmore k hk
        exact ⟨c', List.mem_cons_of_mem _ hc', hk⟩

/-- What a call that succeeds does. -/
theorem synthesize_ok {cs : List Component} {d d' : Draft} {b : Blueprint} (hd : d.Sound)
    (hr : (s.synthesize cs).run d = (.ok b, d')) :
    b.contracts = d'.contracts ∧ d'.Sound ∧ (∀ c ∈ cs, d'.has c.type = true) ∧
      ∃ more, d'.contracts = d.contracts ++ more ∧
        ∀ k ∈ more, ∃ c ∈ cs, s.DerivedFrom c.filter c.type d'.namings k := by
  obtain ⟨d₁, text, hadd, hemit, rfl⟩ := s.synthesize_runs hr
  have hsame : SameContracts d₁ d' := (emitting_keeps _).of_run hemit
  obtain ⟨hd₁, hall, more, hat, hmore⟩ := s.addComponents_ok hd hadd
  refine ⟨rfl, hd₁.of_same hsame.sameNamings, fun c hc => ?_, more, by rw [hsame.1, hat], ?_⟩
  · rw [has, hsame.2.1]
    exact hall c hc
  · rw [hsame.sameNamings.1]
    exact hmore

end Synthesizer

/-! Two classes that lead to each other. -/

namespace Peers

def left : ClassId := ⟨"peers", "Left", 0⟩
def right : ClassId := ⟨"peers", "Right", 0⟩

/-- A class with one property, whose type is a class. -/
def withPeer (c peer : ClassId) : ClassInfo :=
  { id := c, lineage := [c, ClassId.object], attributes := [("peer", .cls peer)] }

def synthesizer : Synthesizer where
  world := { classes := [withPeer left right, withPeer right left], modules := [] }
  stem := "Peers"

def components : List Component := [{ type := left }, { type := right }]

end Peers

end ModelContracts
