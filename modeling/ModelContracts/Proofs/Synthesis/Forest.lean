import Mathlib.Logic.Relation
import ModelContracts.Proofs.Synthesis.Closure
import ModelContracts.Proofs.Synthesis.Uniqueness
import ModelContracts.Proofs.Synthesis.Wording

/-!
The contracts of a derivation as a forest. Each component that still has no contract gets a tree: its
own contract, then those of the classes that it reaches, each behind the one from which it was reached
first and named below it. Filter and base are those of the component throughout; only its own contract
may have another base.
-/

namespace ModelContracts

open Ledger Draft

namespace Synthesizer

variable (s : Synthesizer)

/-- The text was given to the class at some moment between two drafts. -/
def TextOf (d d' : Draft) (c : ClassId) (text : String) : Prop :=
  ∃ d₁ d₂, Grows s.world d.ledger d₁.ledger ∧ (s.cls c).run d₁ = (.ok text, d₂) ∧
    Grows s.world d₂.ledger d'.ledger

/-- The contract `k` is named below the contract `p`, which reads its class: a member of `p` that is
not writable was made for an accepted property with that class for the core of its type. -/
structure Nests (filter : PropertyFilter) (p k : Contract) : Prop where
  name : k.name = p.name ++ s.stem ++ k.backing.simpleName
  read : ∃ ds q m, s.accepted p.backing filter = .ok ds ∧ q ∈ firstNamed ds [] ∧ m ∈ p.members ∧
    m.name = q.name ∧ m.writable = false ∧ s.world.valueLike q.type = false ∧
    q.type.core = .cls k.backing

/-- A contract below that of a component. -/
structure Inner (d d' : Draft) (base : ClassId) (k : Contract) : Prop where
  nested : k.nested = true
  isAbstract : k.isAbstract = false
  base : s.TextOf d d' base k.baseText

/-- Contracts that grow below a first one, in the order of the list. -/
inductive Below (d d' : Draft) (filter : PropertyFilter) (base : ClassId) (top : Contract) :
    List Contract → Prop
  | nil : Below d d' filter base top []
  | snoc {more : List Contract} {p k : Contract} (h : Below d d' filter base top more)
      (hp : p ∈ top :: more) (hn : s.Nests filter p k) (hk : s.Inner d d' base k) :
      Below d d' filter base top (more ++ [k])

/-- The contract of a component itself. -/
structure Opened (d d' : Draft) (c : Component) (around : Option String) (k : Contract) : Prop where
  backing : k.backing = c.type
  name : k.name = s.contractName c.type around
  nested : k.nested = around.isSome
  isAbstract : k.isAbstract = c.isAbstract
  base : s.TextOf d d' (if around.isNone then c.rootBase.getD c.base else c.base) k.baseText

/-- A component, its contract and those below it. -/
structure Tree where
  component : Component
  root : Contract
  below : List Contract

def Tree.contracts (t : Tree) : List Contract := t.root :: t.below

structure Tree.Grown (d d' : Draft) (t : Tree) : Prop where
  root : s.Opened d d' t.component none t.root
  below : s.Below d d' t.component.filter t.component.base t.root t.below

/-- What the contracts of a derivation are. -/
structure Forest (cs : List Component) (d d' : Draft) (ks : List Contract) : Prop where
  /-- A contract that is not nested is that of the first component of its class. -/
  roots : ∀ k ∈ ks, k.nested = false → ∃ c, cs.find? (·.type = k.backing) = some c ∧
    k.name = s.namePrefix ++ s.stem ++ k.backing.simpleName ∧ k.isAbstract = c.isAbstract ∧
    s.TextOf d d' (c.rootBase.getD c.base) k.baseText
  /-- A nested contract stands behind its only parent, which a path of parents leads to from the
  contract of a component. -/
  nested : ∀ before k after, ks = before ++ k :: after → k.nested = true →
    k.isAbstract = false ∧ ∃ root c, root ∈ before ∧ root.nested = false ∧
      cs.find? (·.type = root.backing) = some c ∧ s.TextOf d d' c.base k.baseText ∧
      ∃ p ∈ before, s.Nests c.filter p k ∧
        Relation.ReflTransGen (fun a b => a ∈ ks ∧ b ∈ ks ∧ s.Nests c.filter a b) root p ∧
        ∀ p' ∈ ks, k.name = p'.name ++ s.stem ++ k.backing.simpleName → p' = p

variable {s} {d d' e e' : Draft} {c : Component} {filter : PropertyFilter} {base : ClassId}

theorem TextOf.mono {x : ClassId} {text : String} (h : s.TextOf d d' x text)
    (hd : Grows s.world e.ledger d.ledger) (hd' : Grows s.world d'.ledger e'.ledger) :
    s.TextOf e e' x text := by
  obtain ⟨d₁, d₂, h₁, hr, h₂⟩ := h
  exact ⟨d₁, d₂, hd.trans h₁, hr, h₂.trans hd'⟩

/-- It is the name that the class has in the end, when all names are sure. -/
theorem TextOf.written {x : ClassId} {text : String} (h : s.TextOf d d' x text)
    (hsure : d'.ledger.Sure s.world) : Written s.world d'.ledger x.phrase text := by
  obtain ⟨d₁, d₂, -, hr, hgrown⟩ := h
  exact (s.cls_tells x hr).2 _ hgrown hsure

theorem Inner.mono {k : Contract} (h : s.Inner d d' base k) (hd : Grows s.world e.ledger d.ledger)
    (hd' : Grows s.world d'.ledger e'.ledger) : s.Inner e e' base k :=
  ⟨h.nested, h.isAbstract, h.base.mono hd hd'⟩

theorem Below.mono {top : Contract} {more : List Contract} (h : s.Below d d' filter base top more)
    (hd : Grows s.world e.ledger d.ledger) (hd' : Grows s.world d'.ledger e'.ledger) :
    s.Below e e' filter base top more := by
  induction h with
  | nil => exact .nil
  | snoc _ hp hn hk ih => exact .snoc ih hp hn (hk.mono hd hd')

theorem Opened.mono {around : Option String} {k : Contract} (h : s.Opened d d' c around k)
    (hd : Grows s.world e.ledger d.ledger) (hd' : Grows s.world d'.ledger e'.ledger) :
    s.Opened e e' c around k :=
  ⟨h.backing, h.name, h.nested, h.isAbstract, h.base.mono hd hd'⟩

theorem Nests.addMember {p k : Contract} (h : s.Nests filter p k)
    (m : Member) : s.Nests filter (p.addMember m) k := by
  obtain ⟨hname, ds, q, m', hds, hq, hm, hrest⟩ := h
  exact ⟨hname, ds, q, m', hds, hq, List.mem_append_left _ hm, hrest⟩

theorem Below.addMember {top : Contract} {more : List Contract}
    (h : s.Below d d' filter base top more) (m : Member) :
    s.Below d d' filter base (top.addMember m) more := by
  induction h with
  | nil => exact .nil
  | snoc _ hp hn hk ih =>
    rcases List.mem_cons.1 hp with rfl | hp
    · exact .snoc ih List.mem_cons_self (hn.addMember m) hk
    · exact .snoc ih (List.mem_cons_of_mem _ hp) hn hk

/-- A tree that grows below a contract goes behind what grew there before. -/
theorem Below.append {top k : Contract} {more rest : List Contract}
    (h : s.Below d d' filter base top more)
    (hn : s.Nests filter top k) (hk : s.Inner d d' base k) (hrest : s.Below d d' filter base k rest) :
    s.Below d d' filter base top (more ++ k :: rest) := by
  induction hrest with
  | nil => exact .snoc h List.mem_cons_self hn hk
  | @snoc rest p k' _ hp hn' hk' ih =>
    have hmem : p ∈ top :: (more ++ k :: rest) :=
      List.mem_cons_of_mem _ (List.mem_append_right _ hp)
    simpa using ih.snoc hmem hn' hk'

/-! The names. -/

/-- A contract without a name leaves nothing to start the names below it with. -/
theorem namePrefix_of_empty {x : ClassId} {around : Option String}
    (h : (s.contractName x around).isEmpty = true) : s.namePrefix = "" := by
  cases around with
  | none => simp_all [contractName]
  | some name =>
    by_cases hname : name.isEmpty = true
    · simp_all [contractName]
    · simp_all [contractName]

theorem contractName_below {name : String} {x y : ClassId} {around : Option String}
    (h : name = s.contractName x around) :
    s.contractName y (some name) = name ++ s.stem ++ y.simpleName := by
  simp only [contractName]
  split_ifs with hempty
  · have hstart := namePrefix_of_empty (h ▸ hempty)
    rw [hstart, String.isEmpty_iff.1 hempty]
  · rfl

/-! Steps of a derivation. -/

variable (s) in
theorem openContract_opens {around : Option String} {out : Nat × String}
    (hr : (s.openContract c around).run d = (.ok out, d')) :
    out = (d.contracts.length, s.contractName c.type around) ∧ ∃ k, d'.contracts = d.contracts ++ [k] ∧
      k.members = [] ∧ s.Opened d d' c around k := by
  obtain ⟨d₁, header, d₂, text, d₃, hgrown, hheader, hbase, hout, hat, hledger⟩ := s.openContract_ok hr
  have hbefore := hgrown.trans (s.headerLines_tells _ _ hheader).1
  exact ⟨hout, _, hat, rfl, rfl, rfl, rfl, rfl, d₂, d₃, hbefore, hbase, hledger ▸ .refl _⟩

theorem member_made {p : Descriptor} {m : Member} (hr : (s.member p).run d = (.ok m, d')) :
    m.name = p.name ∧ m.writable = s.world.valueLike p.type := by
  obtain ⟨text, d₁, -, hr⟩ := run_bind_ok hr
  obtain ⟨annotations, d₂, -, hr⟩ := run_bind_ok hr
  cases hr
  exact ⟨rfl, rfl⟩

variable (s) in
/-- Deriving the contract of a class puts it on the list, and those that it reaches below it. -/
def Sprouts (create : Component → Option String → Synthesis Nat) : Prop :=
  ∀ ⦃c around d place d'⦄, (create c around).run d = (.ok place, d') →
    ∃ k more, d'.contracts = d.contracts ++ k :: more ∧ s.Opened d d' c around k ∧
      s.Below d d' c.filter c.base k more

section

variable {create : Component → Option String → Synthesis Nat}
  (hs : s.Sprouts create)
  (hgrows : ∀ c around, Tells s.world Draft.ledger (fun _ _ => True) (create c around))

include hs in
theorem createNested_sprouts {name : String} {p : Descriptor}
    (hr : (s.createNested create c name p).run d = (.ok ⟨⟩, d')) :
    d' = d ∨ ∃ x k more, s.nestedClass? p = some x ∧ d'.contracts = d.contracts ++ k :: more ∧
      s.Opened d d' (nestedComponent c x) (some name) k ∧
      s.Below d d' c.filter c.base k more := by
  unfold createNested at hr
  split at hr
  next x hx =>
    rw [run_bind, run_get] at hr
    dsimp only at hr
    split_ifs at hr
    · obtain ⟨place, d₁, hcreate, hr⟩ := run_bind_ok hr
      cases hr
      obtain ⟨k, more, hat, hopened, hbelow⟩ := hs hcreate
      exact .inr ⟨x, k, more, hx, hat, hopened, hbelow⟩
    · cases hr
      exact .inl rfl
  · cases hr
    exact .inl rfl

include hs hgrows in
/-- The member that is added reads the class of the tree that has grown for it. -/
theorem addMember_sprouts {around : Option String} {p : Descriptor} {ds : List Descriptor}
    {before after : List Contract} {k : Contract} (hds : s.accepted c.type c.filter = .ok ds)
    (hp : p ∈ firstNamed ds []) (hat : d.contracts = before ++ k :: after)
    (hk : k.backing = c.type) (hname : k.name = s.contractName c.type around)
    (hr : (s.addMember create c before.length k.name p).run d = (.ok ⟨⟩, d'))
    (hstart : Grows s.world e.ledger d.ledger) (hbelow : s.Below e d c.filter c.base k after) :
    ∃ m more, d'.contracts = before ++ k.addMember m :: (after ++ more) ∧
      s.Below e d' c.filter c.base (k.addMember m) (after ++ more) := by
  have hgrown := (addMember_grows hgrows c _ _ p hr).1
  obtain ⟨_, d₁, hnested, hr⟩ := run_bind_ok hr
  obtain ⟨m, d₂, hmember, hr⟩ := run_bind_ok hr
  cases hr
  have hsame : d₂.contracts = d₁.contracts := ((s.member_keeps p).of_run hmember).1
  have hlater : Grows s.world d₁.ledger d₂.ledger := (s.member_tells p hmember).1
  have hold := (hbelow.mono (.refl _) hgrown).addMember m
  rcases createNested_sprouts hs hnested with rfl | ⟨x, k', more, hx, hat₁, hopened, hmore⟩
  · refine ⟨m, [], ?_, by simpa using hold⟩
    simp only [Draft.addMember]
    rw [hsame, hat, modify_length_append, List.append_nil]
  · obtain ⟨hvalue, hcore⟩ := nestedClass?_eq_some.1 hx
    obtain ⟨hmname, hmwritable⟩ := member_made hmember
    have hinner : s.Inner e (d₂.addMember before.length m) c.base k' :=
      ⟨hopened.nested, hopened.isAbstract, hopened.base.mono hstart hlater⟩
    have hnests : s.Nests c.filter (k.addMember m) k' := by
      refine ⟨?_, ds, p, m, by rw [← hds, ← hk]; rfl, hp, ?_, hmname, by rw [hmwritable, hvalue],
        hvalue, by rw [hcore, hopened.backing]; rfl⟩
      · rw [hopened.name, hopened.backing, contractName_below hname]
        rfl
      · exact List.mem_append_right _ (List.mem_singleton.2 rfl)
    refine ⟨m, k' :: more, ?_, hold.append hnests hinner (hmore.mono hstart hlater)⟩
    simp only [Draft.addMember]
    rw [hsame, hat₁, hat, List.append_assoc, List.cons_append, modify_length_append]

include hs hgrows in
theorem addMembers_sprouts {around : Option String} {ds ps : List Descriptor} {seen : List String}
    {before after : List Contract} {k : Contract} (hds : s.accepted c.type c.filter = .ok ds)
    (hps : firstNamed ps seen ⊆ firstNamed ds []) (hat : d.contracts = before ++ k :: after)
    (hk : k.backing = c.type) (hname : k.name = s.contractName c.type around)
    (hr : (s.addMembers create c before.length k.name ps seen).run d = (.ok ⟨⟩, d'))
    (hstart : Grows s.world e.ledger d.ledger) (hbelow : s.Below e d c.filter c.base k after) :
    ∃ ms more, d'.contracts = before ++ { k with members := ms } :: (after ++ more) ∧
      s.Below e d' c.filter c.base { k with members := ms } (after ++ more) := by
  induction ps generalizing seen d after k with
  | nil =>
    cases hr
    exact ⟨k.members, [], by simpa using hat, by simpa using hbelow⟩
  | cons p rest ih =>
    unfold addMembers at hr
    rw [firstNamed] at hps
    split_ifs at hr hps with hseen
    · exact ih hps hat hk hname hr hstart hbelow
    · obtain ⟨hp, hrest⟩ := List.cons_subset.1 hps
      obtain ⟨_, d₁, hadd, hr⟩ := run_bind_ok hr
      have hgrown := (addMember_grows hgrows c _ _ p hadd).1
      obtain ⟨m, more₁, hat₁, hbelow₁⟩ :=
        addMember_sprouts hs hgrows hds hp hat hk hname hadd hstart hbelow
      obtain ⟨ms, more, hat', hbelow'⟩ :=
        ih hrest hat₁ hk hname hr (hstart.trans hgrown) hbelow₁
      exact ⟨ms, more₁ ++ more, by simpa [Contract.addMember] using hat',
        by simpa [Contract.addMember] using hbelow'⟩

end

variable (s)

theorem create_sprouts (fuel : Nat) : s.Sprouts (s.create fuel) := by
  induction fuel with
  | zero =>
    intro c around d place d' hr
    cases hr
  | succ fuel ih =>
    intro c around d place d' hr
    obtain ⟨name, d₁, ds, hopen, ha, hmembers⟩ := s.create_ok hr
    have hgrown := (s.openContract_worded hopen).1
    obtain ⟨hout, k, hat, hempty, hopened⟩ := s.openContract_opens hopen
    cases hout
    have hlater := (addMembers_grows (s.create_grows fuel) c _ _ ds [] hmembers).1
    rw [← hopened.name] at hmembers
    obtain ⟨ms, more, hat', hbelow⟩ := addMembers_sprouts ih (s.create_grows fuel) ha
      (fun _ h => h) hat hopened.backing hopened.name hmembers hgrown .nil
    have hroot : s.Opened d d' c around { k with members := ms } :=
      ⟨hopened.backing, hopened.name, hopened.nested, hopened.isAbstract,
        hopened.base.mono (.refl _) hlater⟩
    exact ⟨_, more, by simpa using hat', hroot, by simpa using hbelow⟩

/-- A component whose class has no contract gets a tree. -/
theorem addComponent_sprouts {c : Component} {d d' : Draft}
    (hr : (s.addComponent c).run d = (.ok ⟨⟩, d')) :
    d'.contracts = d.contracts ∨ ∃ t : Tree, t.component = c ∧ d.has c.type = false ∧
      d'.contracts = d.contracts ++ t.contracts ∧ t.Grown s d d' := by
  obtain ⟨d₁, hrefs, hsame, hcases⟩ := s.addComponent_cases hr
  have hgrown := (s.referenceTypes_grows _ hrefs).1
  rcases hcases with ⟨-, hlog⟩ | ⟨hhas, place, hcreate⟩
  · exact .inl (by rw [hlog.1, hsame.1])
  · obtain ⟨k, more, hat, hopened, hbelow⟩ := s.create_sprouts _ hcreate
    refine .inr ⟨⟨c, k, more⟩, rfl, ?_, by rw [hat, hsame.1]; rfl, hopened.mono hgrown (.refl _),
      hbelow.mono hgrown (.refl _)⟩
    rw [has, ← hsame.2.1]
    exact hhas

theorem addComponents_sprouts {cs : List Component} {d d' : Draft} (hd : d.Sound)
    (hr : (cs.forM s.addComponent).run d = (.ok ⟨⟩, d')) :
    ∃ trees : List Tree, d'.contracts = d.contracts ++ trees.flatMap Tree.contracts ∧
      ∀ t ∈ trees, t.Grown s d d' ∧ d.has t.component.type = false ∧
        cs.find? (·.type = t.component.type) = some t.component := by
  induction cs generalizing d with
  | nil =>
    cases hr
    exact ⟨[], by simp, by simp⟩
  | cons c rest ih =>
    obtain ⟨_, d₁, hadd, hr⟩ := run_bind_ok hr
    obtain ⟨hd₁, hhas, more, hat, -⟩ := s.addComponent_ok hd hadd
    have hgrown := (s.addComponent_grows c hadd).1
    have hlater := (s.addComponents_grows rest hr).1
    obtain ⟨trees, hat', htrees⟩ := ih hd₁ hr
    have hkept : ∀ x, d₁.has x = false → d.has x = false := by
      intro x hx
      rw [Bool.eq_false_iff] at hx ⊢
      intro hold
      obtain ⟨name, hname⟩ := hd.has_iff.1 hold
      refine hx (hd₁.has_iff.2 ⟨name, ?_⟩)
      unfold namings
      rw [hat, List.map_append]
      exact List.mem_append_left _ hname
    have hrest : ∀ t ∈ trees, t.Grown s d d' ∧ d.has t.component.type = false ∧
        (c :: rest).find? (·.type = t.component.type) = some t.component := by
      intro t ht
      obtain ⟨⟨hroot, hbelow⟩, hnew, hfirst⟩ := htrees t ht
      refine ⟨⟨hroot.mono hgrown (.refl _), hbelow.mono hgrown (.refl _)⟩, hkept _ hnew, ?_⟩
      have hother : c.type ≠ t.component.type := by
        intro heq
        rw [← heq, hhas] at hnew
        cases hnew
      rw [List.find?_cons_of_neg (by simpa using hother), hfirst]
    rcases s.addComponent_sprouts hadd with hnone | ⟨t, rfl, hnew, hat₁, hroot, hbelow⟩
    · exact ⟨trees, by rw [hat', hnone], hrest⟩
    · refine ⟨t :: trees, by rw [hat', hat₁, List.append_assoc, List.flatMap_cons], ?_⟩
      intro t' ht'
      rcases List.mem_cons.1 ht' with rfl | ht'
      · exact ⟨⟨hroot.mono (.refl _) hlater, hbelow.mono (.refl _) hlater⟩, hnew, by simp⟩
      · exact hrest t' ht'

/-! From trees to the list. -/

variable {s} {d d' : Draft}

theorem Below.inner {filter : PropertyFilter} {base : ClassId} {top k : Contract}
    {more : List Contract} (h : s.Below d d' filter base top more) (hk : k ∈ more) :
    s.Inner d d' base k := by
  induction h with
  | nil => cases hk
  | snoc _ _ _ hk' ih =>
    rcases List.mem_append.1 hk with hk | hk
    · exact ih hk
    · rw [List.mem_singleton.1 hk]
      exact hk'

theorem Below.parent {filter : PropertyFilter} {base : ClassId} {top k : Contract}
    {more before after : List Contract} (h : s.Below d d' filter base top more)
    (hsplit : more = before ++ k :: after) :
    ∃ p ∈ top :: before, s.Nests filter p k := by
  induction h generalizing after with
  | nil => simp at hsplit
  | @snoc more p k' _ hp hn _ ih =>
    rcases List.eq_nil_or_concat after with rfl | ⟨after, x, rfl⟩
    · obtain ⟨rfl, hk⟩ := List.append_inj' hsplit rfl
      cases hk
      exact ⟨p, hp, hn⟩
    · have hinit : more ++ [k'] = (before ++ k :: after) ++ [x] := by simpa using hsplit
      exact ih (List.append_inj' hinit rfl).1

theorem Below.reached {filter : PropertyFilter} {base : ClassId} {top : Contract}
    {more ks : List Contract} (h : s.Below d d' filter base top more) (hks : top :: more ⊆ ks) :
    ∀ k ∈ top :: more,
      Relation.ReflTransGen (fun a b => a ∈ ks ∧ b ∈ ks ∧ s.Nests filter a b) top k := by
  induction h with
  | nil =>
    intro k hk
    rw [List.mem_singleton.1 hk]
  | @snoc more p k' _ hp hn _ ih =>
    have hsub : top :: more ⊆ top :: (more ++ [k']) :=
      List.cons_subset_cons _ (List.subset_append_left _ _)
    intro k hk
    rw [← List.cons_append] at hk
    rcases List.mem_append.1 hk with hk | hk
    · exact ih (List.Subset.trans hsub hks) k hk
    · rw [List.mem_singleton.1 hk]
      exact (ih (List.Subset.trans hsub hks) p hp).tail ⟨hks (hsub hp), hks (by simp), hn⟩

/-- The contract at some place of the trees is in one of them. -/
theorem exists_tree {trees : List Tree} {before after : List Contract} {k : Contract}
    (h : trees.flatMap Tree.contracts = before ++ k :: after) :
    ∃ t ∈ trees, ∃ earlier inside rest, before = earlier ++ inside ∧
      t.contracts = inside ++ k :: rest := by
  induction trees generalizing before with
  | nil => simp at h
  | cons t trees ih =>
    rw [List.flatMap_cons] at h
    rcases List.append_eq_append_iff.1 h with ⟨m, hbefore, hm⟩ | ⟨m, ht, hm⟩
    · obtain ⟨t', ht', earlier, inside, rest, hb, hc⟩ := ih hm
      exact ⟨t', List.mem_cons_of_mem _ ht', t.contracts ++ earlier, inside, rest, by simp [hbefore, hb], hc⟩
    · cases m with
      | nil =>
        have hrest : trees.flatMap Tree.contracts = [] ++ k :: after := by simpa using hm.symm
        obtain ⟨t', ht', earlier, inside, rest, hb, hc⟩ := ih hrest
        obtain ⟨rfl, rfl⟩ := List.append_eq_nil_iff.1 hb.symm
        exact ⟨t', List.mem_cons_of_mem _ ht', before, [], rest, by simp, hc⟩
      | cons x m =>
        obtain ⟨rfl, hafter⟩ := List.cons.inj hm
        exact ⟨t, List.mem_cons_self, [], before, m, rfl, ht⟩

theorem Tree.Grown.eq_root {t : Tree} {k : Contract} (h : t.Grown s d d') (hk : k ∈ t.contracts)
    (hnested : k.nested = false) : k = t.root := by
  rcases List.mem_cons.1 hk with rfl | hk
  · rfl
  · rw [(h.below.inner hk).nested] at hnested
    cases hnested

/-- A nested contract is not the first of its tree. -/
theorem Tree.Grown.split {t : Tree} {inside rest : List Contract} {k : Contract}
    (h : t.Grown s d d') (hsplit : t.contracts = inside ++ k :: rest) (hnested : k.nested = true) :
    ∃ inner, inside = t.root :: inner ∧ t.below = inner ++ k :: rest := by
  cases inside with
  | nil =>
    obtain ⟨rfl, -⟩ := List.cons.inj hsplit
    rw [h.root.nested] at hnested
    cases hnested
  | cons x inner =>
    obtain ⟨rfl, hbelow⟩ := List.cons.inj hsplit
    exact ⟨inner, rfl, hbelow⟩

/-- The contracts of a derivation that starts with none are a forest. -/
theorem synthesize_forest {cs : List Component} {e : Emission} {b : Blueprint}
    (hr : (s.synthesize cs).run { emission := e } = (.ok b, d')) :
    s.Forest cs { emission := e } d' b.contracts := by
  obtain ⟨hcontracts, hd', -⟩ := s.synthesize_ok (.start e) hr
  obtain ⟨_, d₁, hadd, hr⟩ := run_bind_ok hr
  obtain ⟨text, d₂, hemit, hr⟩ := run_bind_ok hr
  rw [run_bind, run_get] at hr
  cases hr
  have hsame : d'.contracts = d₁.contracts := ((emitting_keeps _).of_run hemit).1
  have hlater : Grows s.world d₁.ledger d'.ledger := by
    have hform : Tells s.world Draft.ledger
        (fun L t => Written s.world L (Phrase.form "Annotated") t)
        (Synthesis.emitting (Emitting.recording (Recording.form "Annotated"))) :=
      emitting_tells (Emitting.recording_tells (Recording.form_tells (by decide)))
    exact (hform hemit).1
  obtain ⟨trees, hat, htrees⟩ := s.addComponents_sprouts (.start e) hadd
  have hks : d'.contracts = trees.flatMap Tree.contracts := by rw [hsame, hat, List.nil_append]
  have hgrown : ∀ t ∈ trees, t.Grown s { emission := e } d' := fun t ht =>
    ⟨(htrees t ht).1.root.mono (.refl _) hlater, (htrees t ht).1.below.mono (.refl _) hlater⟩
  have hfirst : ∀ t ∈ trees, cs.find? (·.type = t.root.backing) = some t.component := by
    intro t ht
    rw [(hgrown t ht).root.backing]
    exact (htrees t ht).2.2
  refine ⟨fun k hk hnested => ?_, fun before k after hsplit hnested => ?_⟩
  · obtain ⟨t, ht, hmem⟩ := List.mem_flatMap.1 (hks ▸ hk)
    obtain rfl := (hgrown t ht).eq_root hmem hnested
    have hroot := (hgrown t ht).root
    refine ⟨t.component, hfirst t ht, ?_, hroot.isAbstract, hroot.base⟩
    rw [hroot.name, hroot.backing]
    rfl
  · obtain ⟨t, ht, earlier, inside, rest, rfl, hparts⟩ := exists_tree (hks.symm.trans hsplit)
    obtain ⟨inner, rfl, hbelow⟩ := (hgrown t ht).split hparts hnested
    have hk : k ∈ t.below := by simp [hbelow]
    have hall : t.contracts ⊆ d'.contracts := hks ▸ fun x hx => List.mem_flatMap.2 ⟨t, ht, hx⟩
    obtain ⟨-, habstract, hbase⟩ := (hgrown t ht).below.inner hk
    obtain ⟨p, hp, hnests⟩ := (hgrown t ht).below.parent hbelow
    have hp' : p ∈ t.contracts := by
      rw [Tree.contracts, hbelow, ← List.cons_append]
      exact List.mem_append_left _ hp
    refine ⟨habstract, t.root, t.component, by simp, (hgrown t ht).root.nested, hfirst t ht, hbase, p, List.mem_append_right _ hp, hnests,
      (hgrown t ht).below.reached hall p hp', fun p' hmem hname => ?_⟩
    have hnames : p'.name = p.name := by
      rw [hnests.name] at hname
      exact ((String.append_left_inj _).1 ((String.append_left_inj _).1 hname)).symm
    exact List.inj_on_of_nodup_map hd'.names_nodup hmem (hall hp') hnames

/-- Two classes that lead to each other: the contract of the second one grows below the first. -/
theorem peers_forest : ∃ b d, (Peers.synthesizer.synthesize Peers.components).run
      { emission := Peers.synthesizer.start.emission } = (.ok b, d) ∧
    Peers.synthesizer.Forest Peers.components { emission := Peers.synthesizer.start.emission } d
      b.contracts := by
  have hok : ((Peers.synthesizer.synthesize Peers.components).run
      { emission := Peers.synthesizer.start.emission }).1.isOk = true := by decide +kernel
  obtain ⟨b, d, hb⟩ := run_of_isOk hok
  exact ⟨b, d, hb, synthesize_forest hb⟩

end Synthesizer

end ModelContracts
