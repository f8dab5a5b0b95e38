import ModelContracts.Proofs.Reference.Annotations
import ModelContracts.Proofs.Synthesis.Filling

/-!
The wording of contracts. All that a derivation writes on a contract is the text of a phrase: the base,
the lines above the class and, for each member, the type and the annotations. The names in it are those
that the ledger has when the derivation is done, though contracts are opened and names are reserved all
the while.
-/

namespace ModelContracts

open Ledger Draft

def Draft.ledger (d : Draft) : Ledger := d.emission.ledger

namespace Synthesizer

variable (s : Synthesizer)

/-! What is written on a contract. -/

/-- Whether a property is declared with the option of `None`, though its own type may not have it. -/
def optional (p : Descriptor) : Bool :=
  !p.has s.world MarkerShape.nullValue.kind && s.world.valueLike p.type &&
    !(p.type.isClass ClassId.str || s.world.isStruct p.type)

/-- What may stand for the type of a property: the name of a contract, or a type. -/
inductive TypeWords (namings : List Naming) (p : Descriptor) : Phrase → Prop
  | contract {c : ClassId} {name : String} (hnull : p.has s.world MarkerShape.nullValue.kind = false)
    (hc : s.nestedClass? p = some c) (hname : (c, name) ∈ namings) :
    TypeWords namings p [.word name]
  | type (h : s.optional p = false)
    (hnode : s.nestedClass? p = none ∨ p.has s.world MarkerShape.nullValue.kind = true) :
    TypeWords namings p (s.world.typePhrase p.type)
  | nullable {t : TypeExpr} {formed formed' : FormMemory} (h : s.optional p = true)
    (ht : formed.nullable? p.type = .ok (t, formed')) : TypeWords namings p (s.world.typePhrase t)

/-- A member that is written for a property. -/
structure MemberWorded (L : Ledger) (namings : List Naming) (p : Descriptor) (m : Member) : Prop where
  name : m.name = p.name
  writable : m.writable = s.world.valueLike p.type
  type : ∃ t, s.TypeWords namings p t ∧ Written s.world L t m.typeText
  annotations : ∃ ps, s.book.Annotates s.world p ps ∧ WrittenAll s.world L ps m.annotations

def identityPhrase (c : ClassId) : Phrase :=
  .word "@" :: MarkerShape.className.callPhrase [.word (Text.quote c.fullName)]

def headerPhrases (c : ClassId) (isAbstract : Bool) : List Phrase :=
  if isAbstract then
    [identityPhrase c, .word "@" :: MarkerShape.modelAbstractClass.kind.ownCallPhrase]
  else [identityPhrase c]

/-- A contract that is written for its class, with one of two bases. -/
structure Worded (L : Ledger) (namings : List Naming) (filter : PropertyFilter) (top below : ClassId)
    (k : Contract) : Prop where
  base : Written s.world L (if k.nested then below else top).phrase k.baseText
  header : WrittenAll s.world L (headerPhrases k.backing k.isAbstract) k.header
  members : ∀ m ∈ k.members, ∃ ds p, s.accepted k.backing filter = .ok ds ∧ p ∈ ds ∧
    s.MemberWorded L namings p m

variable {s} {L : Ledger} {ns ns' : List Naming}

theorem TypeWords.mono {p : Descriptor} {t : Phrase} (h : s.TypeWords ns p t) (hsub : ns ⊆ ns') :
    s.TypeWords ns' p t := by
  cases h with
  | contract hnull hc hname => exact .contract hnull hc (hsub hname)
  | type h hnode => exact .type h hnode
  | nullable h ht => exact .nullable h ht

theorem MemberWorded.mono {p : Descriptor} {m : Member} (h : s.MemberWorded L ns p m)
    (hsub : ns ⊆ ns') : s.MemberWorded L ns' p m where
  name := h.name
  writable := h.writable
  type := h.type.imp fun _ ht => ⟨ht.1.mono hsub, ht.2⟩
  annotations := h.annotations

theorem Worded.mono {filter : PropertyFilter} {top below : ClassId} {k : Contract}
    (h : s.Worded L ns filter top below k) (hsub : ns ⊆ ns') :
    s.Worded L ns' filter top below k where
  base := h.base
  header := h.header
  members m hm := by
    obtain ⟨ds, p, hds, hp, hw⟩ := h.members m hm
    exact ⟨ds, p, hds, hp, hw.mono hsub⟩

theorem Worded.addMember {filter : PropertyFilter} {top below : ClassId} {k : Contract}
    (h : s.Worded L ns filter top below k) {ds : List Descriptor} {p : Descriptor} {m : Member}
    (hds : s.accepted k.backing filter = .ok ds) (hp : p ∈ ds) (hm : s.MemberWorded L ns p m) :
    s.Worded L ns filter top below (k.addMember m) where
  base := h.base
  header := h.header
  members n hn := by
    rcases List.mem_append.1 hn with hn | hn
    · exact h.members n hn
    · exact ⟨ds, p, hds, hp, List.mem_singleton.1 hn ▸ hm⟩

/-! Every step makes the ledger grow. -/

theorem emitting_tells {α : Type} {Q : Ledger → α → Prop} {m : Emitting α}
    (h : Tells s.world Emission.ledger Q m) :
    Tells s.world Draft.ledger Q (Synthesis.emitting m) := by
  intro d a d' hr
  have hrun : (Synthesis.emitting m).run d =
      ((m.run d.emission).1, { d with emission := (m.run d.emission).2 }) := rfl
  rw [hrun] at hr
  obtain ⟨ha, rfl⟩ := Prod.mk.inj hr
  exact h (Prod.ext ha rfl)

variable (s)

theorem cls_tells (c : ClassId) :
    Tells s.world Draft.ledger (fun L t => Written s.world L c.phrase t) (s.cls c) :=
  emitting_tells (Emitting.cls_tells c)

theorem type_tells (t : TypeExpr) :
    Tells s.world Draft.ledger (fun L u => Written s.world L (s.world.typePhrase t) u) (s.type t) :=
  emitting_tells (Emitting.type_tells t)

theorem log_tells (r : LogRecord) :
    Tells s.world Draft.ledger (fun _ _ => True) (Synthesis.log r) :=
  .of_same fun d a d' hr => by
    cases hr
    exact ⟨rfl, fun _ => trivial⟩

theorem modify_tells {f : Draft → Draft} (h : ∀ d, (f d).ledger = d.ledger) :
    Tells s.world Draft.ledger (fun _ _ => True) (modify f : Synthesis Unit) :=
  .of_same fun d a d' hr => by
    cases hr
    exact ⟨h d, fun _ => trivial⟩

theorem get_tells : Tells s.world Draft.ledger (fun _ _ => True) (get : Synthesis Draft) :=
  .of_same fun d a d' hr => by
    cases hr
    exact ⟨rfl, fun _ => trivial⟩

theorem reserve_tells (name : String) :
    Tells s.world Draft.ledger (fun _ _ => True) (Synthesis.emitting (Emitting.reserve name)) := by
  refine emitting_tells fun e a e' hr => ⟨?_, fun _ _ _ => trivial⟩
  unfold Emitting.reserve Emitting.log at hr
  rw [run_bind, run_get] at hr
  dsimp only at hr
  split_ifs at hr <;>
  · cases hr
    exact grows_reserve e.ledger name

theorem claimName_tells (name : String) (c : ClassId) :
    Tells s.world Draft.ledger (fun _ _ => True) (claimName name c) := by
  refine s.get_tells.seq fun d => ?_
  split
  · exact .throw _
  · exact s.modify_tells fun _ => rfl

theorem headerLines_tells (c : ClassId) (isAbstract : Bool) :
    Tells s.world Draft.ledger (fun L ts => WrittenAll s.world L (headerPhrases c isAbstract) ts)
      (s.headerLines c isAbstract) := by
  have hidentity {L : Ledger} {head : String}
      (hhead : Written s.world L MarkerShape.className.kind.phrase head) :
      Written s.world L (identityPhrase c) ("@" ++ head ++ "(" ++ Text.quote c.fullName ++ ")") := by
    have hwhole := (Written.word "@").append (hhead.call (.word (Text.quote c.fullName)))
    simp only [String.append_assoc] at hwhole ⊢
    exact hwhole
  refine (s.cls_tells _).bind fun head => ?_
  unfold headerPhrases
  split_ifs
  · refine (s.cls_tells _).bind fun mark => .pure fun L hmark hhead => ?_
    have hline := (Written.word "@").append (hmark.append (.word "()"))
    rw [← String.append_assoc] at hline
    exact .cons (hidentity hhead) (.cons hline .nil)
  · exact .pure fun L hhead => .cons (hidentity hhead) .nil

theorem valueText_tells (t : TypeExpr) :
    Tells s.world Draft.ledger (fun L u => ∃ p,
      (p = t ∧ (t.isClass ClassId.str || s.world.isStruct t) = true ∨
        (t.isClass ClassId.str || s.world.isStruct t) = false ∧
          ∃ formed formed' : FormMemory, formed.nullable? t = .ok (p, formed')) ∧
        Written s.world L (s.world.typePhrase p) u) (s.valueText t) := by
  unfold valueText
  split_ifs with hplain
  · exact (s.type_tells t).mono fun L u hu => ⟨t, Or.inl ⟨rfl, hplain⟩, hu⟩
  · have hnullable : Tells s.world Draft.ledger (fun _ p => ∃ formed formed' : FormMemory,
        formed.nullable? t = .ok (p, formed')) (Synthesis.emitting (Emitting.nullable t)) := by
      refine emitting_tells (.of_same fun e p e' hr => ?_)
      rcases hformed : e.formed.nullable? t with er | ⟨u, formed⟩ <;>
        simp only [Emitting.nullable, ExceptT.run, hformed] at hr <;> cases hr
      exact ⟨rfl, fun _ => ⟨_, _, hformed⟩⟩
    exact hnullable.bind fun p => (s.type_tells p).mono fun L u hu hp =>
      ⟨p, Or.inr ⟨by simpa using hplain, hp⟩, hu⟩

/-- Unless the name of a contract is written, a type is. -/
theorem memberType_tells (p : Descriptor) :
    Tells s.world Draft.ledger (fun L text =>
      (∃ c, s.nestedClass? p = some c ∧ p.has s.world MarkerShape.nullValue.kind = false) ∨
        ∃ t, s.TypeWords [] p t ∧ Written s.world L t text) (s.memberType p) := by
  unfold memberType
  by_cases hnull : p.has s.world MarkerShape.nullValue.kind = true
  · rw [if_pos hnull]
    have hoptional : s.optional p = false := by simp [optional, hnull]
    exact (s.type_tells _).mono fun L u hu => Or.inr ⟨_, .type hoptional (Or.inr hnull), hu⟩
  rw [if_neg hnull]
  have hnull' : p.has s.world MarkerShape.nullValue.kind = false := by simpa using hnull
  rcases hc : s.nestedClass? p with _ | c
  · dsimp only
    split_ifs with hvalue
    · refine (s.valueText_tells _).mono fun L u hu => Or.inr ?_
      obtain ⟨t, ⟨rfl, hplain⟩ | ⟨hplain, formed, formed', hformed⟩, hw⟩ := hu
      · have hoptional : s.optional p = false := by simp [optional, hplain]
        exact ⟨_, .type hoptional (Or.inl hc), hw⟩
      · have hoptional : s.optional p = true := by simp [optional, hnull', hvalue, hplain]
        exact ⟨_, .nullable hoptional hformed, hw⟩
    · have hoptional : s.optional p = false := by simp [optional, hvalue]
      exact (s.type_tells _).mono fun L u hu => Or.inr ⟨_, .type hoptional (Or.inl hc), hu⟩
  · refine s.get_tells.seq fun d => ?_
    have hnode (L : Ledger) (text : String) : (∃ c', some c = some c' ∧
        p.has s.world MarkerShape.nullValue.kind = false) ∨
          ∃ t, s.TypeWords [] p t ∧ Written s.world L t text := Or.inl ⟨c, rfl, hnull'⟩
    split
    · exact .pure fun L => hnode L _
    · exact (s.type_tells _).mono fun L u _ => hnode L u

theorem member_tells (p : Descriptor) :
    Tells s.world Draft.ledger (fun L m => m.name = p.name ∧
      m.writable = s.world.valueLike p.type ∧
        ((∃ c, s.nestedClass? p = some c ∧ p.has s.world MarkerShape.nullValue.kind = false) ∨
          ∃ t, s.TypeWords [] p t ∧ Written s.world L t m.typeText) ∧
        ∃ ps, s.book.Annotates s.world p ps ∧ WrittenAll s.world L ps m.annotations)
      (s.member p) :=
  (s.memberType_tells p).bind fun _ =>
    (emitting_tells (translateAll_tells s.book p)).bind fun _ =>
      .pure fun _ hnotes htype => ⟨rfl, rfl, htype, hnotes⟩

variable {s}

/-- A member is worded when the node that it may refer to has a contract. -/
theorem member_worded {p : Descriptor} {d d' : Draft} {m : Member} (hd : d.Sound)
    (hreached : ∀ c, s.nestedClass? p = some c → d.has c = true)
    (hr : (s.member p).run d = (.ok m, d')) (hL : Grows s.world d'.ledger L)
    (hsure : L.Sure s.world) : s.MemberWorded L d.namings p m := by
  obtain ⟨hname, hwritable, htype, hnotes⟩ := (s.member_tells p hr).2 L hL hsure
  refine ⟨hname, hwritable, ?_, hnotes⟩
  rcases htype with ⟨c, hc, hnull⟩ | ⟨t, ht, hw⟩
  · have hnaming := (s.member_ok hd hr).2 c hc hnull (hreached c hc)
    exact ⟨_, .contract hnull hc hnaming, .word _⟩
  · exact ⟨t, ht.mono (List.nil_subset _), hw⟩

variable (s)

theorem claimName_contracts {name : String} {c : ClassId} {d d' : Draft} {r : Unit}
    (hr : (claimName name c).run d = (.ok r, d')) : d'.contracts = d.contracts := by
  unfold claimName at hr
  rw [run_bind, run_get] at hr
  dsimp only at hr
  split at hr <;> cases hr
  rfl

theorem headerLines_keeps (c : ClassId) (isAbstract : Bool) :
    Keeps SameContracts (s.headerLines c isAbstract) := by
  refine (emitting_keeps _).bind fun _ => ?_
  split_ifs
  · exact (emitting_keeps _).bind fun _ => .pure _
  · exact .pure _

/-- A contract that is opened goes to the end of the list, without members; its header is written first
and then its base. -/
theorem openContract_ok {c : Component} {around : Option String} {d d' : Draft}
    {out : Nat × String} (hr : (s.openContract c around).run d = (.ok out, d')) :
    ∃ d₁ header d₂ base d₃, Grows s.world d.ledger d₁.ledger ∧
      (s.headerLines c.type c.isAbstract).run d₁ = (.ok header, d₂) ∧
      (s.cls (if around.isNone then c.rootBase.getD c.base else c.base)).run d₂ = (.ok base, d₃) ∧
      out = (d.contracts.length, s.contractName c.type around) ∧
      d'.contracts = d.contracts ++ [{
        backing := c.type, name := s.contractName c.type around, baseText := base, header := header
        isAbstract := c.isAbstract, nested := around.isSome }] ∧
      d'.ledger = d₃.ledger := by
  obtain ⟨_, d₁, hclaim, hr⟩ := run_bind_ok hr
  obtain ⟨_, d₂, hreserve, hr⟩ := run_bind_ok hr
  obtain ⟨_, d₃, hcls, hr⟩ := run_bind_ok hr
  obtain ⟨header, d₄, hheader, hr⟩ := run_bind_ok hr
  obtain ⟨base, d₅, hbase, hr⟩ := run_bind_ok hr
  rw [run_bind, run_get] at hr
  dsimp only at hr
  rw [run_bind, run_modify] at hr
  cases hr
  have hcontracts : d₅.contracts = d.contracts := by
    rw [((emitting_keeps _).of_run hbase).1, ((s.headerLines_keeps _ _).of_run hheader).1,
      ((emitting_keeps _).of_run hcls).1, ((emitting_keeps _).of_run hreserve).1,
      claimName_contracts hclaim]
  have hgrown : Grows s.world d.ledger d₃.ledger :=
    ((s.claimName_tells _ _ hclaim).1.trans (s.reserve_tells _ hreserve).1).trans (s.cls_tells _ hcls).1
  rw [← hcontracts]
  exact ⟨d₃, header, d₄, base, d₅, hgrown, hheader, hbase, rfl, rfl, rfl⟩

/-- A contract that is opened is written for its class, and has no members yet. -/
theorem openContract_worded {c : Component} {around : Option String} {d d' : Draft}
    {out : Nat × String} (hr : (s.openContract c around).run d = (.ok out, d')) :
    Grows s.world d.ledger d'.ledger ∧ out.1 = d.contracts.length ∧
      ∃ k, d'.contracts = d.contracts ++ [k] ∧
      k.backing = c.type ∧ k.nested = around.isSome ∧ ∀ L, Grows s.world d'.ledger L → L.Sure s.world →
        ∀ ns filter top, (around = none → top = c.rootBase.getD c.base) →
          s.Worded L ns filter top c.base k := by
  obtain ⟨d₁, header, d₂, base, d₃, hgrown, hheader, hbase, rfl, hat, hledger⟩ := s.openContract_ok hr
  obtain ⟨hheaderGrows, hheaderWritten⟩ := s.headerLines_tells _ _ hheader
  obtain ⟨hbaseGrows, hbaseWritten⟩ := s.cls_tells _ hbase
  rw [hledger]
  refine ⟨(hgrown.trans hheaderGrows).trans hbaseGrows, rfl, _, hat, rfl, rfl,
    fun L hL hsure ns filter top htop => ?_⟩
  refine ⟨?_, hheaderWritten L (hbaseGrows.trans hL) hsure, nofun⟩
  have hbase' := hbaseWritten L hL hsure
  cases around with
  | none =>
    rw [htop rfl]
    exact hbase'
  | some name => exact hbase'

/-! Every step of a derivation makes the ledger grow. -/

section

variable {s}
variable {create : Component → Option String → Synthesis Nat}
  (h : ∀ c around, Tells s.world Draft.ledger (fun _ _ => True) (create c around))

include h

theorem createNested_grows (c : Component) (name : String) (p : Descriptor) :
    Tells s.world Draft.ledger (fun _ _ => True) (s.createNested create c name p) := by
  unfold createNested
  split
  · refine s.get_tells.seq fun d => ?_
    split_ifs
    · exact (h _ _).seq fun _ => .pure fun _ => trivial
    · exact .pure fun _ => trivial
  · exact .pure fun _ => trivial

theorem addMember_grows (c : Component) (place : Nat) (name : String) (p : Descriptor) :
    Tells s.world Draft.ledger (fun _ _ => True) (s.addMember create c place name p) :=
  (createNested_grows h c name p).seq fun _ => (s.member_tells p).seq fun _ =>
    s.modify_tells fun _ => rfl

theorem addMembers_grows (c : Component) (place : Nat) (name : String) (ps : List Descriptor)
    (seen : List String) :
    Tells s.world Draft.ledger (fun _ _ => True) (s.addMembers create c place name ps seen) := by
  induction ps generalizing seen with
  | nil => exact .pure fun _ => trivial
  | cons p rest ih =>
    unfold addMembers
    split_ifs
    · exact ih seen
    · exact (addMember_grows h c place name p).seq fun _ => ih _

end

theorem create_grows (fuel : Nat) (c : Component) (around : Option String) :
    Tells s.world Draft.ledger (fun _ _ => True) (s.create fuel c around) := by
  induction fuel generalizing c around with
  | zero => exact .throw _
  | succ fuel ih =>
    have hopen : Tells s.world Draft.ledger (fun _ _ => True) (s.openContract c around) :=
      fun _ _ _ hr => ⟨(s.openContract_worded hr).1, fun _ _ _ => trivial⟩
    refine hopen.seq fun (place, name) => ?_
    dsimp only
    split
    · exact .throw _
    · exact (addMembers_grows ih c place name _ _).seq fun _ => .pure fun _ => trivial

/-! What a derivation puts on the list is worded. -/

/-- The contracts from one place on are worded for a component. -/
def WordedFrom (L : Ledger) (c : Component) (top : ClassId) (n : Nat) (d : Draft) : Prop :=
  ∀ k ∈ d.contracts.drop n, s.Worded L d.namings c.filter top c.base k

/-- Deriving the contract of a class that has none words it, and those that it leads to. -/
def Words (create : Component → Option String → Synthesis Nat) : Prop :=
  ∀ ⦃c around d place d'⦄, d.Sound → d.has c.type = false →
    (create c around).run d = (.ok place, d') → ∀ L, Grows s.world d'.ledger L → L.Sure s.world →
      ∀ top, (around = none → top = c.rootBase.getD c.base) →
        s.WordedFrom L c top d.contracts.length d'

section

variable {s}
variable {create : Component → Option String → Synthesis Nat}
  (hfills : s.Fills create) (hwords : s.Words create)
  (hgrows : ∀ c around, Tells s.world Draft.ledger (fun _ _ => True) (create c around))

include hwords in
theorem createNested_worded {c : Component} {name : String} {p : Descriptor} {d d' : Draft}
    (hd : d.Sound) (hr : (s.createNested create c name p).run d = (.ok ⟨⟩, d'))
    (hL : Grows s.world d'.ledger L) (hsure : L.Sure s.world) (top : ClassId) :
    s.WordedFrom L c top d.contracts.length d' := by
  have hnothing : s.WordedFrom L c top d.contracts.length d := by simp [WordedFrom]
  unfold createNested at hr
  split at hr
  next nested hn =>
    rw [run_bind, run_get] at hr
    dsimp only at hr
    split_ifs at hr with hhas
    · obtain ⟨place, d₁, hcreate, hr⟩ := run_bind_ok hr
      cases hr
      have hnew : d.has nested = false := by simpa using hhas
      exact hwords (c := nestedComponent c nested) hd hnew hcreate L hL hsure top nofun
    · cases hr
      exact hnothing
  · cases hr
    exact hnothing

include hfills hwords in
theorem addMember_worded {c : Component} {name : String} {ds : List Descriptor} {p : Descriptor}
    {d d' : Draft} {before after : List Contract} {k : Contract} {top : ClassId} (hd : d.Sound)
    (hds : s.accepted c.type c.filter = .ok ds) (hp : p ∈ ds)
    (hat : d.contracts = before ++ k :: after) (hk : k.backing = c.type)
    (hr : (s.addMember create c before.length name p).run d = (.ok ⟨⟩, d'))
    (hL : Grows s.world d'.ledger L) (hsure : L.Sure s.world)
    (hw : s.WordedFrom L c top before.length d) : s.WordedFrom L c top before.length d' := by
  obtain ⟨_, d₁, hnested, hr⟩ := run_bind_ok hr
  obtain ⟨m, d₂, hmember, hr⟩ := run_bind_ok hr
  cases hr
  have hrefers : ∀ c', s.nestedClass? p = some c' → s.Refers c.filter c.type c' :=
    fun c' hc' => ⟨ds, p, hds, hp, hc'⟩
  obtain ⟨hd₁, hreached, more, hat₁, -⟩ := s.createNested_ok hfills hd hrefers hnested
  have hsame : SameContracts d₁ d₂ := (s.member_keeps p).of_run hmember
  have hgrown : Grows s.world d₁.ledger d₂.ledger := (s.member_tells p hmember).1
  have hnew := createNested_worded hwords hd hnested (hgrown.trans hL) hsure top
  have hm : s.MemberWorded L d₁.namings p m := member_worded hd₁ hreached hmember hL hsure
  have hnamings : (d₂.addMember before.length m).namings = d₁.namings := by
    rw [namings_addMember, hsame.sameNamings.1]
  have hsub : d.namings ⊆ d₁.namings := by
    unfold namings
    rw [hat₁, List.map_append]
    exact List.subset_append_left _ _
  have hcontracts : (d₂.addMember before.length m).contracts =
      before ++ k.addMember m :: (after ++ more) := by
    simp only [Draft.addMember]
    rw [hsame.1, hat₁, hat, List.append_assoc, List.cons_append, modify_length_append]
  unfold WordedFrom at hw hnew ⊢
  rw [hcontracts, hnamings, List.drop_left]
  rw [hat, List.drop_left] at hw
  rw [hat₁, List.drop_left] at hnew
  intro j hj
  rcases List.mem_cons.1 hj with rfl | hj
  · exact ((hw k List.mem_cons_self).mono hsub).addMember (by rw [hk]; exact hds) hp hm
  · rcases List.mem_append.1 hj with hj | hj
    · exact (hw j (List.mem_cons_of_mem _ hj)).mono hsub
    · exact hnew j hj

include hfills hwords hgrows in
theorem addMembers_worded {c : Component} {name : String} {ds ps : List Descriptor}
    {seen : List String} {d d' : Draft} {before after : List Contract} {k : Contract}
    {top : ClassId} (hd : d.Sound) (hds : s.accepted c.type c.filter = .ok ds) (hps : ps ⊆ ds)
    (hat : d.contracts = before ++ k :: after) (hk : k.backing = c.type)
    (hr : (s.addMembers create c before.length name ps seen).run d = (.ok ⟨⟩, d'))
    (hL : Grows s.world d'.ledger L) (hsure : L.Sure s.world)
    (hw : s.WordedFrom L c top before.length d) : s.WordedFrom L c top before.length d' := by
  induction ps generalizing seen d after k with
  | nil =>
    cases hr
    exact hw
  | cons p rest ih =>
    obtain ⟨hp, hrest⟩ := List.cons_subset.1 hps
    unfold addMembers at hr
    split_ifs at hr with hseen
    · exact ih hd hrest hat hk hr hw
    · obtain ⟨_, d₁, hadd, hr⟩ := run_bind_ok hr
      obtain ⟨hd₁, m, more, hat₁, -⟩ :=
        s.addMember_ok hfills hd (fun c' hc' => ⟨ds, p, hds, hp, hc'⟩) hat hadd
      have hL₁ := (addMembers_grows hgrows c _ name rest _ hr).1.trans hL
      exact ih hd₁ hrest hat₁ hk hr (addMember_worded hfills hwords hd hds hp hat hk hadd hL₁ hsure hw)

end

theorem create_words (fuel : Nat) : s.Words (s.create fuel) := by
  induction fuel with
  | zero =>
    intro c around d place d' _ _ hr
    cases hr
  | succ fuel ih =>
    intro c around d place d' hd hc hr L hL hsure top htop
    obtain ⟨name, d₁, ds, hopen, ha, hmembers⟩ := s.create_ok hr
    have hd₁ : d₁.Sound := by
      have hg := (s.given_openContract c around hd hc).sound
      rwa [hopen] at hg
    obtain ⟨hgrown, rfl, k, hat, hback, -, hworded⟩ := s.openContract_worded hopen
    have hL₁ := (addMembers_grows (s.create_grows fuel) c _ name ds [] hmembers).1.trans hL
    refine addMembers_worded (s.create_fills fuel) ih (s.create_grows fuel) hd₁ ha
      (fun _ h => h) hat hback hmembers hL hsure ?_
    rw [WordedFrom, hat, List.drop_left]
    simpa using hworded L hL₁ hsure _ _ top htop

theorem referenceTypes_grows (ts : List TypeExpr) : Tells s.world Draft.ledger (fun _ _ => True)
    (ts.forM fun t => discard (s.type t)) := by
  induction ts with
  | nil => exact .pure fun _ => trivial
  | cons t ts ih =>
    have hone : Tells s.world Draft.ledger (fun _ _ => True) (discard (s.type t)) :=
      (s.type_tells t).map fun _ _ _ => trivial
    exact hone.seq fun _ => ih

theorem addComponent_grows (c : Component) :
    Tells s.world Draft.ledger (fun _ _ => True) (s.addComponent c) := by
  refine (s.referenceTypes_grows _).seq fun _ => s.get_tells.seq fun d => ?_
  split_ifs
  · exact s.log_tells _
  · exact (s.create_grows _ c none).seq fun _ => .pure fun _ => trivial

theorem addComponents_grows (cs : List Component) :
    Tells s.world Draft.ledger (fun _ _ => True) (cs.forM s.addComponent) := by
  induction cs with
  | nil => exact .pure fun _ => trivial
  | cons c rest ih => exact (s.addComponent_grows c).seq fun _ => ih

/-- A contract is worded for one of some components. -/
def WordedFor (L : Ledger) (ns : List Naming) (cs : List Component) (k : Contract) : Prop :=
  ∃ c ∈ cs, s.Worded L ns c.filter (c.rootBase.getD c.base) c.base k

theorem addComponent_worded {c : Component} {d d' : Draft} (hd : d.Sound)
    (hr : (s.addComponent c).run d = (.ok ⟨⟩, d')) (hL : Grows s.world d'.ledger L)
    (hsure : L.Sure s.world) :
    ∀ k ∈ d'.contracts.drop d.contracts.length, s.WordedFor L d'.namings [c] k := by
  obtain ⟨d₁, -, hsame, ⟨-, hlog⟩ | ⟨hhas, place, hcreate⟩⟩ := s.addComponent_cases hr
  · rw [hlog.1, hsame.1]
    simp
  · have hnew := s.create_words _ (hd.of_same hsame.sameNamings) hhas hcreate L hL hsure _ fun _ => rfl
    rw [← hsame.1]
    exact fun k hk => ⟨c, List.mem_singleton_self c, hnew k hk⟩

theorem WordedFor.mono {s : Synthesizer} {ns ns' : List Naming} {cs cs' : List Component}
    {k : Contract} (h : s.WordedFor L ns cs k) (hsub : ns ⊆ ns') (hcs : cs ⊆ cs') :
    s.WordedFor L ns' cs' k := by
  obtain ⟨c, hc, hw⟩ := h
  exact ⟨c, hcs hc, hw.mono hsub⟩

theorem addComponents_worded {cs : List Component} {d d' : Draft} (hd : d.Sound)
    (hr : (cs.forM s.addComponent).run d = (.ok ⟨⟩, d')) (hL : Grows s.world d'.ledger L)
    (hsure : L.Sure s.world) :
    ∀ k ∈ d'.contracts.drop d.contracts.length, s.WordedFor L d'.namings cs k := by
  induction cs generalizing d with
  | nil =>
    cases hr
    simp
  | cons c rest ih =>
    obtain ⟨_, d₁, hadd, hr⟩ := run_bind_ok hr
    obtain ⟨hd₁, -, more₁, hat₁, -⟩ := s.addComponent_ok hd hadd
    obtain ⟨-, -, more, hat, -⟩ := s.addComponents_ok hd₁ hr
    have hL₁ := (s.addComponents_grows rest hr).1.trans hL
    have hnew₁ := s.addComponent_worded hd hadd hL₁ hsure
    have hnew := ih hd₁ hr
    have hsub : d₁.namings ⊆ d'.namings := by
      unfold namings
      rw [hat, List.map_append]
      exact List.subset_append_left _ _
    rw [hat₁, List.drop_left] at hnew₁
    rw [hat, List.drop_left] at hnew
    rw [hat, hat₁, List.append_assoc, List.drop_left]
    intro k hk
    rcases List.mem_append.1 hk with hk | hk
    · exact (hnew₁ k hk).mono hsub (by simp)
    · exact (hnew k hk).mono (fun _ h => h) (List.subset_cons_self c rest)

/-- The contracts that are derived from nothing are all worded, in the names of the ledger from which
the lines of imports are taken. -/
theorem synthesize_worded {cs : List Component} {d d' : Draft} {b : Blueprint} (hd : d.Sound)
    (hnone : d.contracts = []) (hr : (s.synthesize cs).run d = (.ok b, d'))
    (hsure : d'.ledger.Sure s.world) :
    Grows s.world d.ledger d'.ledger ∧
      (∀ k ∈ b.contracts, s.WordedFor d'.ledger d'.namings cs k) ∧
      Written s.world d'.ledger (Phrase.form "Annotated") b.annotatedText ∧
      b.importLines = d'.ledger.importLines ∧ b.contracts = d'.contracts := by
  obtain ⟨d₁, text, hadd, hemit, rfl⟩ := s.synthesize_runs hr
  have hsame : SameContracts d₁ d' := (emitting_keeps _).of_run hemit
  have hform : Tells s.world Draft.ledger
      (fun L t => Written s.world L (Phrase.form "Annotated") t)
      (Synthesis.emitting (Emitting.recording (Recording.form "Annotated"))) :=
    emitting_tells (Emitting.recording_tells (Recording.form_tells (by decide)))
  obtain ⟨hgrown, hwritten⟩ := hform hemit
  have hworded := s.addComponents_worded hd hadd hgrown hsure
  rw [hnone, List.length_nil, List.drop_zero] at hworded
  refine ⟨(s.addComponents_grows cs hadd).1.trans hgrown, fun k hk => ?_,
    hwritten _ (.refl _) hsure, rfl, rfl⟩
  rw [hsame.sameNamings.1]
  exact hworded k (hsame.1 ▸ hk)

end Synthesizer

end ModelContracts
