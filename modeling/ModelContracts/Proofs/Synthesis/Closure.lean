import ModelContracts.Proofs.Reflection
import ModelContracts.Proofs.Synthesis.Filling

/-!
The classes that get contracts, when the filter only chooses among the properties: those that the
components lead to. The derivation goes depth first, and a class whose contract is still being filled
counts as met; but once it has succeeded every contract on the list is filled, so the list is closed
under what its classes lead to.
-/

namespace ModelContracts

open EmissionError Draft

namespace PropertyFilter

variable {w : World}

theorem apply_cons {f : PropertyFilter} {p : Descriptor} {rest ds : List Descriptor}
    (h : f.apply w (p :: rest) = .ok ds) :
    ∃ o ds', f.run w p = .ok o ∧ f.apply w rest = .ok ds' ∧ ds = o.toList ++ ds' := by
  obtain ⟨os, hos, hds⟩ := except_bind_ok h
  cases hds
  rw [List.mapM_cons] at hos
  obtain ⟨o, ho, hos⟩ := except_bind_ok hos
  obtain ⟨os', hos', hcons⟩ := except_bind_ok hos
  cases hcons
  refine ⟨o, os'.filterMap id, ho, ?_, by cases o <;> rfl⟩
  unfold apply
  rw [hos']
  rfl

/-- The filter accepts or rejects, and changes nothing. -/
def OnlyChooses (w : World) (f : PropertyFilter) : Prop :=
  ∀ p q, f.run w p = .ok (some q) → q = p

theorem onlyChooses_none : OnlyChooses w none := by
  intro p q h
  cases h
  rfl

/-- What is left of the properties is in their order, and is what the filter accepts. -/
theorem OnlyChooses.apply_ok {f : PropertyFilter} (hf : f.OnlyChooses w)
    {candidates ds : List Descriptor} (h : f.apply w candidates = .ok ds) :
    ds.Sublist candidates ∧ ∀ p, p ∈ ds ↔ p ∈ candidates ∧ f.run w p = .ok (some p) := by
  induction candidates generalizing ds with
  | nil =>
    cases h
    simp
  | cons q rest ih =>
    obtain ⟨o, ds', ho, hrest, rfl⟩ := apply_cons h
    obtain ⟨hsub, hmem⟩ := ih hrest
    cases o with
    | none =>
      refine ⟨hsub.cons q, fun p => ?_⟩
      rw [Option.toList_none, List.nil_append, hmem, List.mem_cons]
      constructor
      · exact fun hp => ⟨Or.inr hp.1, hp.2⟩
      · rintro ⟨rfl | hp, hrun⟩
        · rw [ho] at hrun
          cases hrun
        · exact ⟨hp, hrun⟩
    | some q' =>
      obtain rfl := hf q q' ho
      refine ⟨hsub.cons_cons q', fun p => ?_⟩
      rw [Option.toList_some, List.singleton_append, List.mem_cons, hmem, List.mem_cons]
      constructor
      · rintro (rfl | hp)
        · exact ⟨Or.inl rfl, ho⟩
        · exact ⟨Or.inr hp.1, hp.2⟩
      · rintro ⟨rfl | hp, hrun⟩
        · exact Or.inl rfl
        · exact Or.inr ⟨hp, hrun⟩

end PropertyFilter

/-- Descriptors with different names are all first with theirs. -/
theorem firstNamed_eq_self {ds : List Descriptor} {seen : List String}
    (h : (ds.map (·.name)).Nodup) (hseen : ∀ p ∈ ds, p.name ∉ seen) : firstNamed ds seen = ds := by
  induction ds generalizing seen with
  | nil => rfl
  | cons p rest ih =>
    obtain ⟨hp, hrest⟩ := List.nodup_cons.1 h
    have hnew : seen.contains p.name = false := by
      simpa using hseen p List.mem_cons_self
    unfold firstNamed
    rw [hnew]
    refine congrArg (p :: ·) (ih hrest fun q hq hmem => ?_)
    rcases List.mem_cons.1 hmem with hname | hmem
    · exact hp (List.mem_map.2 ⟨q, hq, hname⟩)
    · exact hseen q (List.mem_cons_of_mem p hq) hmem

namespace Synthesizer

variable {s : Synthesizer} {filter : PropertyFilter}

/-- The first class has a property that the filter accepts, whose type is not a value and, under its
layers and without the option of `None`, is the second class. -/
def LeadsTo (s : Synthesizer) (filter : PropertyFilter) (c c' : ClassId) : Prop :=
  ∃ candidates p, s.world.candidates? c = .ok candidates ∧ p ∈ candidates ∧
    filter.run s.world p = .ok (some p) ∧ s.world.valueLike p.type = false ∧
    p.type.core = .cls c'

theorem nestedClass?_eq_some {p : Descriptor} {c : ClassId} :
    s.nestedClass? p = some c ↔ s.world.valueLike p.type = false ∧ p.type.core = .cls c := by
  unfold nestedClass?
  cases s.world.valueLike p.type with
  | true => simp
  | false => cases p.type.core <;> simp [TypeExpr.class?]

theorem accepted_ok {c : ClassId} {ds : List Descriptor} (h : s.accepted c filter = .ok ds) :
    ∃ candidates, s.world.candidates? c = .ok candidates ∧
      filter.apply s.world candidates = .ok ds := by
  unfold accepted at h
  split at h
  · cases h
  next candidates hcandidates => exact ⟨candidates, hcandidates, h⟩

theorem LeadsTo.of_refers (hf : filter.OnlyChooses s.world) {c c' : ClassId}
    (h : s.Refers filter c c') : s.LeadsTo filter c c' := by
  obtain ⟨ds, p, hds, hp, hnested⟩ := h
  obtain ⟨candidates, hcandidates, happly⟩ := accepted_ok hds
  obtain ⟨hmem, hrun⟩ := ((hf.apply_ok happly).2 p).1 hp
  obtain ⟨hvalue, hcore⟩ := nestedClass?_eq_some.1 hnested
  exact ⟨candidates, p, hcandidates, hmem, hrun, hvalue, hcore⟩

/-- A filled contract has members for all that its class leads to. -/
theorem Filled.leads (hf : filter.OnlyChooses s.world) {namings : List Naming} {k : Contract}
    (h : s.Filled filter namings k) {c : ClassId} (hc : s.LeadsTo filter k.backing c) :
    ∃ name, (c, name) ∈ namings := by
  obtain ⟨ds, hds, hfits⟩ := h
  obtain ⟨candidates, p, hcandidates, hp, hrun, hvalue, hcore⟩ := hc
  obtain ⟨candidates', hcandidates', happly⟩ := accepted_ok hds
  rw [hcandidates] at hcandidates'
  cases hcandidates'
  obtain ⟨hsub, hmem⟩ := hf.apply_ok happly
  have hnames : (ds.map (·.name)).Nodup :=
    (s.world.candidates?_nodup hcandidates).sublist (hsub.map _)
  rw [firstNamed_eq_self hnames (by simp)] at hfits
  exact Fits.reached_of_mem hfits ((hmem p).2 ⟨hp, hrun⟩)
    (nestedClass?_eq_some.2 ⟨hvalue, hcore⟩)

/-- The classes of the contracts are those that the components lead to. -/
theorem backing_iff_reached (hf : filter.OnlyChooses s.world) {cs : List Component}
    (hcs : ∀ c ∈ cs, c.filter = filter) {e : Emission} {b : Blueprint} {d : Draft}
    (h : (s.synthesize cs).run { emission := e } = (.ok b, d)) (c : ClassId) :
    c ∈ b.contracts.map (·.backing) ↔
      ∃ k ∈ cs, Relation.ReflTransGen (s.LeadsTo filter) k.type c := by
  obtain ⟨hb, hd, hhas, more, hat, hmore⟩ := s.synthesize_ok (.start e) h
  rw [List.nil_append] at hat
  rw [← hat] at hmore
  have hderived : ∀ k ∈ d.contracts, ∃ c ∈ cs, s.DerivedFrom filter c.type d.namings k := by
    intro k hk
    obtain ⟨c, hc, hk⟩ := hmore k hk
    exact ⟨c, hc, hcs c hc ▸ hk⟩
  rw [hb]
  constructor
  · intro hc
    obtain ⟨k, hk, rfl⟩ := List.mem_map.1 hc
    obtain ⟨c, hc, hk⟩ := hderived k hk
    exact ⟨c, hc, Relation.ReflTransGen.mono (fun _ _ => LeadsTo.of_refers hf) _ _ hk.reached⟩
  · rintro ⟨k, hk, hreach⟩
    -- The list is closed, so it holds whatever is reached from one of its classes.
    induction hreach with
    | refl =>
      obtain ⟨name, hname⟩ := hd.has_iff.1 (hhas k hk)
      obtain ⟨k', hk', hpair⟩ := List.mem_map.1 hname
      exact List.mem_map.2 ⟨k', hk', congrArg Prod.fst hpair⟩
    | tail _ hlead ih =>
      obtain ⟨k', hk', rfl⟩ := List.mem_map.1 ih
      obtain ⟨_, -, hderiv⟩ := hderived k' hk'
      obtain ⟨name, hname⟩ := hderiv.filled.leads hf hlead
      obtain ⟨k'', hk'', hpair⟩ := List.mem_map.1 hname
      exact List.mem_map.2 ⟨k'', hk'', congrArg Prod.fst hpair⟩

/-- So they do not depend on how often the components are given and in which order. -/
theorem synthesized_classes (hf : filter.OnlyChooses s.world) {cs : List Component}
    (hcs : ∀ c ∈ cs, c.filter = filter) {e : Emission} {b : Blueprint} {d : Draft}
    (h : (s.synthesize cs).run { emission := e } = (.ok b, d)) :
    (∀ c, c ∈ b.contracts.map (·.backing) ↔
      ∃ k ∈ cs, Relation.ReflTransGen (s.LeadsTo filter) k.type c) ∧
    ∀ cs' e' b' d', (∀ c ∈ cs', c.filter = filter) →
      (∀ t, t ∈ cs'.map (·.type) ↔ t ∈ cs.map (·.type)) →
      (s.synthesize cs').run { emission := e' } = (.ok b', d') →
      ∀ c, c ∈ b'.contracts.map (·.backing) ↔ c ∈ b.contracts.map (·.backing) := by
  refine ⟨backing_iff_reached hf hcs h, fun cs' e' b' d' hcs' htypes h' c => ?_⟩
  rw [backing_iff_reached hf hcs' h', backing_iff_reached hf hcs h]
  have same {l l' : List Component} (hl : ∀ t, t ∈ l.map (·.type) → t ∈ l'.map (·.type)) :
      (∃ k ∈ l, Relation.ReflTransGen (s.LeadsTo filter) k.type c) →
        ∃ k ∈ l', Relation.ReflTransGen (s.LeadsTo filter) k.type c := by
    rintro ⟨k, hk, hreach⟩
    obtain ⟨k', hk', htype⟩ := List.mem_map.1 (hl k.type (List.mem_map.2 ⟨k, hk, rfl⟩))
    exact ⟨k', hk', htype ▸ hreach⟩
  exact ⟨same fun t => (htypes t).1, same fun t => (htypes t).2⟩

/-- Classes that lead to each other, given in one order and in the other, one of them twice. -/
theorem peers_classes : ∃ b d b' d',
    (Peers.synthesizer.synthesize Peers.components).run Peers.synthesizer.start = (.ok b, d) ∧
    (Peers.synthesizer.synthesize (Peers.components ++ Peers.components.reverse)).run
      Peers.synthesizer.start = (.ok b', d') ∧
    ∀ c, c ∈ b'.contracts.map (·.backing) ↔ c ∈ b.contracts.map (·.backing) := by
  have hfirst : ((Peers.synthesizer.synthesize Peers.components).run
      Peers.synthesizer.start).1.isOk = true := by decide +kernel
  have hsecond : ((Peers.synthesizer.synthesize (Peers.components ++ Peers.components.reverse)).run
      Peers.synthesizer.start).1.isOk = true := by decide +kernel
  obtain ⟨b, d, hb⟩ := run_of_isOk hfirst
  obtain ⟨b', d', hb'⟩ := run_of_isOk hsecond
  refine ⟨b, d, b', d', hb, hb', ?_⟩
  exact (synthesized_classes PropertyFilter.onlyChooses_none (by simp [Peers.components]) hb).2
    _ _ b' d' (by simp [Peers.components]) (fun t => by simp) hb'

end Synthesizer

end ModelContracts
