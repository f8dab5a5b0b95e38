import Mathlib.Data.List.Nodup
import ModelContracts.Proofs.Synthesis.Depth
import ModelContracts.Proofs.Synthesis.Filling

/-!
Sequences of calls. As long as they succeed, every class has one contract and every name belongs to
one class, and each member that is a node bears the name of the contract of its class. A call reports
a name exactly when two classes ask for it.
-/

namespace ModelContracts

open EmissionError Draft

theorem Draft.Sound.names_nodup {d : Draft} (h : d.Sound) : (d.contracts.map (·.name)).Nodup := by
  have hcontracts : d.contracts.Nodup := .of_map _ h.backings_nodup
  refine hcontracts.map_on fun k hk k' hk' hname => ?_
  have hbacking : k.backing = k'.backing := by
    refine h.class_unique (List.mem_map.2 ⟨k, hk, rfl⟩) (List.mem_map.2 ⟨k', hk', ?_⟩)
    rw [hname]
  exact List.inj_on_of_nodup_map h.backings_nodup hk hk' hbacking

namespace Synthesizer

/-- Where a sequence of calls, all of which succeed, has led to with the components of all of them. -/
inductive Calls (s : Synthesizer) : List Component → Draft → Prop
  | start (e : Emission) : Calls s [] { emission := e }
  | call {cs more : List Component} {d d' : Draft} {b : Blueprint} (before : Calls s cs d)
      (success : (s.synthesize more).run d = (.ok b, d')) : Calls s (cs ++ more) d'

variable {s : Synthesizer}

/-- All contracts on the list have their members, as the filter of a component accepts them. -/
theorem Calls.filled {cs : List Component} {d : Draft} (h : s.Calls cs d) :
    d.Sound ∧ ∀ k ∈ d.contracts, ∃ c ∈ cs, s.Filled c.filter d.namings k := by
  induction h with
  | start e => exact ⟨.start e, by simp⟩
  | @call cs more d d' b before success ih =>
    obtain ⟨hd, hfilled⟩ := ih
    obtain ⟨-, hd', -, new, hat, hnew⟩ := s.synthesize_ok hd success
    have hsub : d.namings ⊆ d'.namings := by
      unfold namings
      rw [hat, List.map_append]
      exact List.subset_append_left _ _
    refine ⟨hd', fun k hk => ?_⟩
    rw [hat] at hk
    rcases List.mem_append.1 hk with hk | hk
    · obtain ⟨c, hc, hk⟩ := hfilled k hk
      exact ⟨c, List.mem_append_left _ hc, hk.mono hsub⟩
    · obtain ⟨c, hc, hk⟩ := hnew k hk
      exact ⟨c, List.mem_append_right _ hc, hk.filled⟩

/-- What holds of the contracts that were derived for the components of some calls. -/
structure OneEach (s : Synthesizer) (cs : List Component) (d : Draft) (contracts : List Contract) :
    Prop where
  backings : (contracts.map (·.backing)).Nodup
  names : (contracts.map (·.name)).Nodup
  arena : ∀ c, d.has c = true ↔ c ∈ contracts.map (·.backing)
  entries : ∀ c k, d.contract? c = some k ↔ k ∈ contracts ∧ k.backing = c
  memberNames : ∀ k ∈ contracts, k.memberNames.Nodup
  /-- The members are those of the first accepted descriptors of each name, and one for a node
  bears the name of the one contract of its class, unless it is marked to be without a value. -/
  members : ∀ k ∈ contracts, ∃ c ∈ cs, ∃ ds, s.accepted k.backing c.filter = .ok ds ∧
    List.Forall₂ (fun p m => m.name = p.name ∧
      ∀ node, s.world.valueLike p.type = false → p.type.core = .cls node →
        p.has s.world MarkerShape.nullValue.kind = false →
        ∃ k' ∈ contracts, k'.backing = node ∧ m.typeText = k'.name ∧
          ∀ k'' ∈ contracts, k''.backing = node → k'' = k')
      (firstNamed ds []) k.members

theorem Calls.oneEach {cs : List Component} {d : Draft} (h : s.Calls cs d) :
    s.OneEach cs d d.contracts := by
  obtain ⟨hd, hfilled⟩ := h.filled
  refine ⟨hd.backings_nodup, hd.names_nodup, fun c => ?_, fun c k => hd.contract?_eq_some,
    fun k hk => ?_, fun k hk => ?_⟩
  · rw [hd.has_iff]
    simp [namings]
  · obtain ⟨c, -, hk⟩ := hfilled k hk
    exact hk.memberNames_nodup
  · obtain ⟨c, hc, ds, hds, hfits⟩ := hfilled k hk
    refine ⟨c, hc, ds, hds, hfits.imp fun p m hfit => ⟨hfit.name, fun node hvalue hcore hnull => ?_⟩⟩
    have hnested : s.nestedClass? p = some node := by simp [nestedClass?, hvalue, hcore, TypeExpr.class?]
    obtain ⟨k', hk', hpair⟩ := List.mem_map.1 (hfit.typed node hnested hnull)
    have hback : k'.backing = node := congrArg Prod.fst hpair
    refine ⟨k', hk', hback, (congrArg Prod.snd hpair).symm, fun k'' hk'' hback'' => ?_⟩
    exact List.inj_on_of_nodup_map hd.backings_nodup hk'' hk' (hback''.trans hback.symm)

/-- Two classes ask for one name just when the call reports it. -/
theorem conflict_iff_asked {more : List Component} {d d' : Draft} {r : Except EmissionError Blueprint}
    (hd : d.Sound) (hr : (s.synthesize more).run d = (r, d')) {name : String} {a b : ClassId}
    (hab : a ≠ b) :
    (r = .error (.nameConflict name a b) ∨ r = .error (.nameConflict name b a)) ↔
      (a, name) ∈ d.namings ++ s.asked more d ∧ (b, name) ∈ d.namings ++ s.asked more d := by
  have hgiven := s.given_synthesize more hd
  rw [hr] at hgiven
  obtain ⟨hd', hconflict, hotherwise⟩ := hgiven
  have reported {x y : ClassId} (h : r = .error (.nameConflict name x y)) :
      (x, name) ∈ d.namings ++ s.asked more d ∧ (y, name) ∈ d.namings ++ s.asked more d := by
    obtain ⟨-, hx, given, hasked, hnamings⟩ := hconflict name x y h
    rw [hasked, ← List.append_assoc, ← hnamings]
    exact ⟨List.mem_append_left _ hx, List.mem_append_right _ (List.mem_singleton.2 rfl)⟩
  constructor
  · rintro (h | h)
    · exact reported h
    · exact (reported h).symm
  · rintro ⟨ha, hb⟩
    by_cases hc : ∃ n x y, r = .error (.nameConflict n x y)
    · obtain ⟨n, x, y, hrep⟩ := hc
      obtain ⟨-, hx, given, hasked, hnamings⟩ := hconflict n x y hrep
      rw [hasked, ← List.append_assoc, ← hnamings] at ha hb
      -- Only the last name asked for can belong to a second class.
      rcases List.mem_append.1 ha with hold | hlast
      · rcases List.mem_append.1 hb with hold' | hlast'
        · exact (hab (hd'.class_unique hold hold')).elim
        · obtain ⟨hy, hn⟩ := Prod.mk.inj (List.mem_singleton.1 hlast')
          rw [hrep, hd'.class_unique hold (hn ▸ hx), hy, hn]
          exact Or.inl rfl
      · obtain ⟨hy, hn⟩ := Prod.mk.inj (List.mem_singleton.1 hlast)
        rcases List.mem_append.1 hb with hold' | hlast'
        · rw [hrep, hd'.class_unique hold' (hn ▸ hx), hy, hn]
          exact Or.inr rfl
        · exact (hab (hy.trans (congrArg Prod.fst (List.mem_singleton.1 hlast')).symm)).elim
    · have hnamings := hotherwise fun n x y h => hc ⟨n, x, y, h⟩
      rw [← hnamings] at ha hb
      exact (hab (hd'.class_unique ha hb)).elim

/-- After any calls that succeed, a further one either succeeds, and then there is one contract for
each class and each name, or reports a name; it does that just when two classes ask for it. -/
theorem calls_oneEach_or_conflict {cs more : List Component} {d d' : Draft}
    {r : Except EmissionError Blueprint} (h : s.Calls cs d)
    (hr : (s.synthesize more).run d = (r, d')) :
    (∀ b, r = .ok b → b.contracts = d'.contracts ∧ s.OneEach (cs ++ more) d' b.contracts ∧
      d'.namings = d.namings ++ s.asked more d) ∧
    (∀ name a b, r = .error (.nameConflict name a b) → a ≠ b) ∧
    (∀ name a b, a ≠ b →
      ((r = .error (.nameConflict name a b) ∨ r = .error (.nameConflict name b a)) ↔
        (a, name) ∈ d.namings ++ s.asked more d ∧ (b, name) ∈ d.namings ++ s.asked more d)) ∧
    (∀ c name, (c, name) ∈ s.asked more d → ∃ around, name = s.contractName c around) ∧
    r ≠ .error .tooDeep := by
  have hd := h.filled.1
  have hgiven := s.given_synthesize more hd
  rw [hr] at hgiven
  refine ⟨?_, fun name a b hrep => (hgiven.conflict name a b hrep).1,
    fun name a b hab => conflict_iff_asked hd hr hab, ?_, ?_⟩
  · rintro b rfl
    have hb : b.contracts = d'.contracts := (s.synthesize_ok hd hr).1
    exact ⟨hb, hb ▸ (h.call hr).oneEach, hgiven.otherwise fun _ _ _ he => by cases he⟩
  · exact fun c name hmem => s.asked_ruled more d (c, name) hmem
  · intro he
    exact s.synthesize_within more d (by rw [hr]; exact he)

/-- Two calls over classes that lead to each other. -/
theorem peers_oneEach : ∃ b d b' d',
    (Peers.synthesizer.synthesize Peers.components).run Peers.synthesizer.start = (.ok b, d) ∧
    (Peers.synthesizer.synthesize Peers.components.reverse).run d = (.ok b', d') ∧
    Peers.synthesizer.OneEach (Peers.components ++ Peers.components.reverse) d' b'.contracts := by
  have hfirst : ((Peers.synthesizer.synthesize Peers.components).run
      Peers.synthesizer.start).1.isOk = true := by decide +kernel
  have hsecond : ((Peers.synthesizer.synthesize Peers.components.reverse).run
      ((Peers.synthesizer.synthesize Peers.components).run Peers.synthesizer.start).2).1.isOk =
        true := by decide +kernel
  obtain ⟨b, d, hb⟩ := run_of_isOk hfirst
  rw [hb] at hsecond
  obtain ⟨b', d', hb'⟩ := run_of_isOk hsecond
  have hcalls : Peers.synthesizer.Calls Peers.components d := .call (.start _) hb
  exact ⟨b, d, b', d', hb, hb', ((calls_oneEach_or_conflict hcalls hb').1 b' rfl).2.1⟩

end Synthesizer

end ModelContracts
