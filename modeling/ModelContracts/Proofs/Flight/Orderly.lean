import ModelContracts.Proofs.Flight.Traffic

/-!
What holds of callers that share flights, in whatever order their steps come. For each key one caller
at most is between the registration and the removal of a flight, and only it builds; waiters are
counted as long as they are attached; each is given what the owner of its flight published; and
nothing is left in the tables when all callers have returned.
-/

namespace ModelContracts

namespace Traffic

open FlightTable

variable {μ ε : Type} {s s' : Traffic μ ε}

/-- What every step keeps: the tables tell how far the callers are. -/
structure Ledgered (s : Traffic μ ε) : Prop where
  numbered : ∀ i c, s.caller? i = some c → c.flight < s.table.next
  owner_unique : ∀ i j c d, s.caller? i = some c → s.caller? j = some d →
    c.stage.owns = true → d.stage.owns = true → c.flight = d.flight → i = j
  running : ∀ key n, s.table.flight? key = some n ↔
    ∃ i c, s.caller? i = some c ∧ c.key = key ∧ c.flight = n ∧ c.stage.aloft = true
  outcomes : ∀ n r, s.table.outcome? n = some r ↔
    ∃ i c, s.caller? i = some c ∧ c.flight = n ∧ c.stage.outcome? = some r
  waiting : ∀ key, s.table.count? key = counted (s.attachedTo key)
  owned : ∀ i c, s.caller? i = some c →
    ∃ j d, s.caller? j = some d ∧ d.key = c.key ∧ d.flight = c.flight ∧ d.stage.owns = true
  received : ∀ i c r, s.caller? i = some c → c.stage.received? = some r →
    ∃ r₀, s.table.outcome? c.flight = some r₀ ∧ r = r₀.map BuildResult.asReused

/-- Two callers with flights of one key under way are one. -/
theorem Ledgered.aloft_unique (h : Ledgered s) {i j : Nat} {c d : Caller (Outcome μ ε)}
    (hi : s.caller? i = some c) (hj : s.caller? j = some d) (hc : c.stage.aloft = true)
    (hd : d.stage.aloft = true) (hkey : c.key = d.key) : i = j := by
  have hrun : s.table.flight? c.key = some c.flight :=
    (h.running _ _).2 ⟨i, c, hi, rfl, rfl, hc⟩
  have hrun' : s.table.flight? c.key = some d.flight :=
    (h.running _ _).2 ⟨j, d, hj, hkey.symm, rfl, hd⟩
  have hflight : c.flight = d.flight := Option.some.inj (hrun.symm.trans hrun')
  exact h.owner_unique i j c d hi hj (Stage.owns_of_aloft hc) (Stage.owns_of_aloft hd) hflight

theorem Ledgered.waitingFor (h : Ledgered s) (key : Location) :
    s.table.waitingFor key = s.attachedTo key := by
  rw [waitingFor_eq, h.waiting, counted_getD]

theorem Ledgered.of_cache (h : Ledgered s) {cache : BuildCache μ ε}
    (hflights : cache.flights = s.cache.flights) : Ledgered { s with cache := cache } := by
  have htable : ({ s with cache := cache } : Traffic μ ε).table = s.table := hflights
  exact ⟨by rw [htable]; exact h.numbered, h.owner_unique, by rw [htable]; exact h.running,
    by rw [htable]; exact h.outcomes, by rw [htable]; exact h.waiting, h.owned,
    by rw [htable]; exact h.received⟩

/-! One caller goes on. -/

section

variable {i : Nat} {c : Caller (Outcome μ ε)} {g : Stage (Outcome μ ε)}
  {t : FlightTable Location (Outcome μ ε)}

theorem owner_unique_advance (h : Ledgered s) (hi : s.caller? i = some c)
    (howns : g.owns = c.stage.owns) {j k : Nat} {d e : Caller (Outcome μ ε)}
    (hj : (s.advance i (c.moved g) t).caller? j = some d)
    (hk : (s.advance i (c.moved g) t).caller? k = some e) (hd : d.stage.owns = true)
    (he : e.stage.owns = true) (hflight : d.flight = e.flight) : j = k := by
  rcases caller_advance hi hj with ⟨rfl, rfl⟩ | ⟨-, hj'⟩ <;>
    rcases caller_advance hi hk with ⟨rfl, rfl⟩ | ⟨-, hk'⟩
  · rfl
  · exact h.owner_unique _ _ c e hi hk' (howns.symm.trans hd) he hflight
  · exact h.owner_unique _ _ d c hj' hi hd (howns.symm.trans he) hflight
  · exact h.owner_unique _ _ d e hj' hk' hd he hflight

theorem owned_advance (h : Ledgered s) (hi : s.caller? i = some c)
    (howns : g.owns = c.stage.owns) {j : Nat} {d : Caller (Outcome μ ε)}
    (hj : (s.advance i (c.moved g) t).caller? j = some d) :
    ∃ k e, (s.advance i (c.moved g) t).caller? k = some e ∧ e.key = d.key ∧
      e.flight = d.flight ∧ e.stage.owns = true := by
  have hbefore : ∃ k e, s.caller? k = some e ∧ e.key = d.key ∧ e.flight = d.flight ∧
      e.stage.owns = true := by
    rcases caller_advance hi hj with ⟨rfl, rfl⟩ | ⟨-, hj⟩
    · exact h.owned _ c hi
    · exact h.owned j d hj
  obtain ⟨k, e, hk, hkey, hflight, he⟩ := hbefore
  by_cases hki : k = i
  · subst hki
    obtain rfl : c = e := Option.some.inj (hi.symm.trans hk)
    exact ⟨k, c.moved g, caller_advance_self hi _ _, hkey, hflight, howns.trans he⟩
  · exact ⟨k, e, (caller_advance_ne hki _ _).trans hk, hkey, hflight, he⟩

/-- Something is true of some caller after a step. -/
theorem exists_advance (hi : s.caller? i = some c) (P : Caller (Outcome μ ε) → Prop) :
    (∃ j d, (s.advance i (c.moved g) t).caller? j = some d ∧ P d) ↔
      P (c.moved g) ∨ ∃ j d, j ≠ i ∧ s.caller? j = some d ∧ P d := by
  constructor
  · rintro ⟨j, d, hj, hd⟩
    rcases caller_advance hi hj with ⟨rfl, rfl⟩ | ⟨hne, hj⟩
    · exact Or.inl hd
    · exact Or.inr ⟨j, d, hne, hj, hd⟩
  · rintro (hc | ⟨j, d, hne, hj, hd⟩)
    · exact ⟨i, _, caller_advance_self hi _ _, hc⟩
    · exact ⟨j, d, (caller_advance_ne hne _ _).trans hj, hd⟩

theorem exists_split (hi : s.caller? i = some c) (P : Caller (Outcome μ ε) → Prop) :
    (∃ j d, s.caller? j = some d ∧ P d) ↔ P c ∨ ∃ j d, j ≠ i ∧ s.caller? j = some d ∧ P d := by
  constructor
  · rintro ⟨j, d, hj, hd⟩
    by_cases hji : j = i
    · subst hji
      obtain rfl : c = d := Option.some.inj (hi.symm.trans hj)
      exact Or.inl hd
    · exact Or.inr ⟨j, d, hji, hj, hd⟩
  · rintro (hc | ⟨j, d, -, hj, hd⟩)
    · exact ⟨i, c, hi, hc⟩
    · exact ⟨j, d, hj, hd⟩

theorem exists_advance_iff (hi : s.caller? i = some c) {P : Caller (Outcome μ ε) → Prop}
    (hP : P (c.moved g) ↔ P c) :
    (∃ j d, (s.advance i (c.moved g) t).caller? j = some d ∧ P d) ↔
      ∃ j d, s.caller? j = some d ∧ P d := by
  rw [exists_advance hi, exists_split hi, hP]

theorem running_advance (h : Ledgered s) (hi : s.caller? i = some c)
    (haloft : g.aloft = c.stage.aloft) (ht : t.running = s.table.running) (key : Location) (n : Nat) :
    t.flight? key = some n ↔
      ∃ j d, (s.advance i (c.moved g) t).caller? j = some d ∧ d.key = key ∧ d.flight = n ∧
        d.stage.aloft = true := by
  rw [flight?, ht, ← flight?, h.running, exists_advance_iff hi]
  simp [Caller.moved, haloft]

theorem outcomes_advance (h : Ledgered s) (hi : s.caller? i = some c)
    (hsame : g.outcome? = c.stage.outcome?) (ht : t.outcomes = s.table.outcomes) (n : Nat)
    (r : Outcome μ ε) : t.outcome? n = some r ↔
      ∃ j d, (s.advance i (c.moved g) t).caller? j = some d ∧ d.flight = n ∧
        d.stage.outcome? = some r := by
  rw [outcome?, ht, ← outcome?, h.outcomes, exists_advance_iff hi]
  simp [Caller.moved, hsame]

theorem attachedTo_advance_same (hi : s.caller? i = some c)
    (hatt : g.attached = c.stage.attached) (key : Location) :
    (s.advance i (c.moved g) t).attachedTo key = s.attachedTo key := by
  have hcount := attachedTo_advance hi g t key
  rw [hatt] at hcount
  omega

theorem waiting_advance (h : Ledgered s) (hi : s.caller? i = some c)
    (hatt : g.attached = c.stage.attached) (ht : t.waiting = s.table.waiting) (key : Location) :
    t.count? key = counted ((s.advance i (c.moved g) t).attachedTo key) := by
  rw [count?, ht, ← count?, h.waiting, attachedTo_advance_same hi hatt]

/-- What was received stays true as long as no outcome is lost. -/
theorem received_advance (h : Ledgered s) (hi : s.caller? i = some c)
    (hmore : ∀ n r, s.table.outcome? n = some r → t.outcome? n = some r)
    (hself : ∀ r, g.received? = some r →
      ∃ r₀, t.outcome? c.flight = some r₀ ∧ r = r₀.map BuildResult.asReused)
    {j : Nat} {d : Caller (Outcome μ ε)} {r : Outcome μ ε}
    (hj : (s.advance i (c.moved g) t).caller? j = some d) (hr : d.stage.received? = some r) :
    ∃ r₀, t.outcome? d.flight = some r₀ ∧ r = r₀.map BuildResult.asReused := by
  rcases caller_advance hi hj with ⟨rfl, rfl⟩ | ⟨-, hj⟩
  · exact hself r hr
  · obtain ⟨r₀, hr₀, hsame⟩ := h.received j d r hj hr
    exact ⟨r₀, hmore _ _ hr₀, hsame⟩

/-- What was received before, a caller that goes on still has. -/
theorem received_kept (h : Ledgered s) (hi : s.caller? i = some c)
    (hmore : ∀ n r, s.table.outcome? n = some r → t.outcome? n = some r)
    (hsame : g.received? = c.stage.received?) (r : Outcome μ ε) (hr : g.received? = some r) :
    ∃ r₀, t.outcome? c.flight = some r₀ ∧ r = r₀.map BuildResult.asReused := by
  obtain ⟨r₀, hr₀, heq⟩ := h.received i c r hi (hsame ▸ hr)
  exact ⟨r₀, hmore _ _ hr₀, heq⟩

theorem numbered_advance (h : Ledgered s) (hi : s.caller? i = some c)
    (ht : t.next = s.table.next) {j : Nat} {d : Caller (Outcome μ ε)}
    (hj : (s.advance i (c.moved g) t).caller? j = some d) : d.flight < t.next := by
  rw [ht]
  rcases caller_advance hi hj with ⟨rfl, rfl⟩ | ⟨-, hj⟩
  · exact h.numbered _ c hi
  · exact h.numbered j d hj

/-- A step that only its caller notices. -/
theorem Ledgered.silent (h : Ledgered s) (hi : s.caller? i = some c) (hg : g.Alike c.stage) :
    Ledgered (s.advance i (c.moved g) s.table) where
  numbered _ _ := numbered_advance h hi rfl
  owner_unique _ _ _ _ := owner_unique_advance h hi hg.owns
  running := running_advance h hi hg.aloft rfl
  outcomes := outcomes_advance h hi hg.outcome rfl
  waiting := waiting_advance h hi hg.attached rfl
  owned _ _ := owned_advance h hi hg.owns
  received _ _ _ := received_advance h hi (fun _ _ hr => hr)
    (received_kept h hi (fun _ _ hr => hr) hg.received)

theorem Ledgered.publish {r : Outcome μ ε} (h : Ledgered s) (hi : s.caller? i = some c)
    (hc : c.stage = .built r) :
    Ledgered (s.advance i (c.moved (.published r)) (s.table.publish c.flight r)) := by
  have hnone : s.table.outcome? c.flight = none := by
    -- Only the owner of the flight publishes, and it has not done so.
    refine Option.eq_none_iff_forall_ne_some.2 fun r' hr' => ?_
    obtain ⟨j, d, hj, hflight, hd⟩ := (h.outcomes _ _).1 hr'
    have hsame := h.owner_unique i j c d hi hj (by rw [hc]; rfl) (Stage.owns_of_outcome? hd)
      hflight.symm
    subst hsame
    obtain rfl : c = d := Option.some.inj (hi.symm.trans hj)
    rw [hc] at hd
    cases hd
  have hmore : ∀ n r', s.table.outcome? n = some r' →
      (s.table.publish c.flight r).outcome? n = some r' := by
    intro n r' hr'
    have hn : n ≠ c.flight := by
      rintro rfl
      rw [hnone] at hr'
      cases hr'
    rw [outcome?_publish, if_neg hn, hr']
  have howns : (Stage.published r).owns = c.stage.owns := by rw [hc]; rfl
  refine ⟨fun _ _ => numbered_advance h hi rfl, fun _ _ _ _ => owner_unique_advance h hi howns,
    running_advance h hi (by rw [hc]; rfl) rfl, fun n r' => ?_,
    waiting_advance h hi (by rw [hc]; rfl) rfl, fun _ _ => owned_advance h hi howns,
    fun _ _ _ => received_advance h hi hmore (received_kept h hi hmore (by rw [hc]; rfl))⟩
  rw [exists_advance hi, table_advance, outcome?_publish]
  by_cases hn : n = c.flight
  · subst hn
    rw [if_pos rfl]
    constructor
    · intro hr
      exact Or.inl ⟨rfl, hr⟩
    · rintro (⟨-, hr⟩ | ⟨j, d, -, hj, hflight, hd⟩)
      · exact hr
      · have hsome := (h.outcomes _ _).2 ⟨j, d, hj, hflight, hd⟩
        rw [hnone] at hsome
        cases hsome
  · rw [if_neg hn, h.outcomes, exists_split hi]
    simp [Caller.moved, hc, Stage.outcome?, Ne.symm hn]

theorem Ledgered.withdraw {r : Outcome μ ε} (h : Ledgered s) (hi : s.caller? i = some c)
    (hc : c.stage = .published r) :
    Ledgered (s.advance i (c.moved (.landed r)) (s.table.withdraw c.key)) := by
  have howns : (Stage.landed r).owns = c.stage.owns := by rw [hc]; rfl
  have haloft : c.stage.aloft = true := by rw [hc]; rfl
  refine ⟨fun _ _ => numbered_advance h hi rfl, fun _ _ _ _ => owner_unique_advance h hi howns,
    fun key n => ?_, outcomes_advance h hi (by rw [hc]; rfl) rfl,
    waiting_advance h hi (by rw [hc]; rfl) rfl, fun _ _ => owned_advance h hi howns,
    fun _ _ _ => received_advance h hi (fun _ _ hr => hr)
      (received_kept h hi (fun _ _ hr => hr) (by rw [hc]; rfl))⟩
  rw [exists_advance hi, table_advance, flight?_withdraw]
  by_cases hkey : key = c.key
  · subst hkey
    rw [if_pos rfl]
    constructor
    · intro hnone
      cases hnone
    · rintro (⟨-, -, hlanded⟩ | ⟨j, d, hne, hj, hkey, -, hd⟩)
      · cases hlanded
      · exact absurd (h.aloft_unique hj hi hd haloft hkey) hne
  · rw [if_neg hkey, h.running, exists_split hi]
    simp [Caller.moved, Stage.aloft, Ne.symm hkey]

theorem Ledgered.wake {r : Outcome μ ε} (h : Ledgered s) (hi : s.caller? i = some c)
    (hc : c.stage = .waiting) (hr : s.table.outcome? c.flight = some r) :
    Ledgered (s.advance i (c.moved (.woken (r.map BuildResult.asReused))) s.table) := by
  have howns : (Stage.woken (r.map BuildResult.asReused)).owns = c.stage.owns := by rw [hc]; rfl
  refine ⟨fun _ _ => numbered_advance h hi rfl, fun _ _ _ _ => owner_unique_advance h hi howns,
    running_advance h hi (by rw [hc]; rfl) rfl, outcomes_advance h hi (by rw [hc]; rfl) rfl,
    waiting_advance h hi (by rw [hc]; rfl) rfl, fun _ _ => owned_advance h hi howns,
    fun _ _ _ => received_advance h hi (fun _ _ hr => hr) fun r' hr' => ?_⟩
  exact ⟨r, hr, (Option.some.inj hr').symm⟩

theorem Ledgered.leave {r : Outcome μ ε} (h : Ledgered s) (hi : s.caller? i = some c)
    (hc : c.stage = .woken r) :
    Ledgered (s.advance i (c.moved (.parted r)) (s.table.leave c.key)) := by
  have howns : (Stage.parted r).owns = c.stage.owns := by rw [hc]; rfl
  refine ⟨fun _ _ => numbered_advance h hi rfl, fun _ _ _ _ => owner_unique_advance h hi howns,
    running_advance h hi (by rw [hc]; rfl) rfl, outcomes_advance h hi (by rw [hc]; rfl) rfl,
    fun key => ?_, fun _ _ => owned_advance h hi howns,
    fun _ _ _ => received_advance h hi (fun _ _ hr => hr)
      (received_kept h hi (fun _ _ hr => hr) (by rw [hc]; rfl))⟩
  have hleave : s.table.leave c.key = s.table.setWaiting c.key (s.attachedTo c.key - 1) := by
    rw [FlightTable.leave, h.waitingFor]
  have hcount := attachedTo_advance hi (.parted r) (s.table.leave c.key) key
  rw [hc] at hcount
  simp only [Stage.attached, and_true, and_false, if_false, Bool.false_eq_true] at hcount
  rw [table_advance]
  generalize (s.advance i (c.moved (.parted r)) (s.table.leave c.key)).attachedTo key = left at hcount ⊢
  rw [hleave, count?_setWaiting]
  by_cases hkey : key = c.key
  · subst hkey
    rw [if_pos rfl] at hcount ⊢
    congr 1
    omega
  · rw [if_neg hkey, h.waiting]
    rw [if_neg (Ne.symm hkey)] at hcount
    congr 1
    omega

end

/-! One caller comes. -/

section

variable {key : Location}

theorem arrive_owner (hfree : s.table.flight? key = none) :
    (s.arrive key).table = { s.table with
      running := s.table.running ++ [(key, s.table.next)], next := s.table.next + 1 } ∧
    newcomer key (s.table.join key).1 = (⟨key, s.table.next, .opened⟩ : Caller (Outcome μ ε)) := by
  simp only [table, arrive, BuildCache.setFlights]
  rw [join_of_free _ _ hfree]
  exact ⟨rfl, rfl⟩

theorem arrive_waiter {n : Nat} (hrun : s.table.flight? key = some n) :
    (s.arrive key).table = s.table.setWaiting key (s.table.waitingFor key + 1) ∧
    newcomer key (s.table.join key).1 = (⟨key, n, .waiting⟩ : Caller (Outcome μ ε)) := by
  simp only [table, arrive, BuildCache.setFlights]
  rw [join_of_running _ _ hrun]
  exact ⟨rfl, rfl⟩

/-- Something is true of some caller after an arrival. -/
theorem exists_arrive (P : Caller (Outcome μ ε) → Prop) :
    (∃ j d, (s.arrive key).caller? j = some d ∧ P d) ↔
      P (newcomer key (s.table.join key).1) ∨ ∃ j d, s.caller? j = some d ∧ P d := by
  constructor
  · rintro ⟨j, d, hj, hd⟩
    rcases caller_arrive.1 hj with hj | ⟨-, rfl⟩
    · exact Or.inr ⟨j, d, hj, hd⟩
    · exact Or.inl hd
  · rintro (hc | ⟨j, d, hj, hd⟩)
    · exact ⟨_, _, caller_arrive.2 (Or.inr ⟨rfl, rfl⟩), hc⟩
    · exact ⟨j, d, caller_arrive.2 (Or.inl hj), hd⟩

theorem Ledgered.arrive_free (h : Ledgered s) (hfree : s.table.flight? key = none) :
    Ledgered (s.arrive key) := by
  obtain ⟨htable, hnew⟩ := arrive_owner hfree
  have hcallers {j : Nat} {d : Caller (Outcome μ ε)} (hj : (s.arrive key).caller? j = some d) :
      s.caller? j = some d ∨ j = s.callers.length ∧ d = ⟨key, s.table.next, .opened⟩ := by
    rw [← hnew]
    exact caller_arrive.1 hj
  have holder {j : Nat} {d : Caller (Outcome μ ε)} (hj : s.caller? j = some d) :
      d.flight ≠ s.table.next := Nat.ne_of_lt (h.numbered j d hj)
  have hmore : ∀ j d, s.caller? j = some d → (s.arrive key).caller? j = some d :=
    fun j d hj => caller_arrive.2 (Or.inl hj)
  refine ⟨fun j d hj => ?_, fun j k d e hj hk hd he hflight => ?_, fun k n => ?_, fun n r => ?_,
    fun k => ?_, fun j d hj => ?_, fun j d r hj hr => ?_⟩
  · rw [htable]
    rcases hcallers hj with hj | ⟨-, rfl⟩
    · exact Nat.lt_succ_of_lt (h.numbered j d hj)
    · exact Nat.lt_succ_self _
  · rcases hcallers hj with hj' | ⟨rfl, rfl⟩ <;> rcases hcallers hk with hk' | ⟨rfl, rfl⟩
    · exact h.owner_unique j k d e hj' hk' hd he hflight
    · exact absurd hflight (holder hj')
    · exact absurd hflight.symm (holder hk')
    · rfl
  · rw [exists_arrive, hnew, htable, ← h.running]
    simp only [flight?]
    rw [lookup_append_free _ _ hfree]
    by_cases hk : k = key
    · subst hk
      simp only [flight?] at hfree
      simp [hfree, Stage.aloft]
    · simp [hk, Ne.symm hk]
  · rw [exists_arrive, hnew, htable, ← h.outcomes]
    simp [outcome?, Stage.outcome?]
  · rw [attachedTo_arrive, hnew, htable]
    simp only [Stage.attached, Bool.false_eq_true, and_false, if_false, Nat.add_zero]
    exact h.waiting k
  · rcases hcallers hj with hj | ⟨rfl, rfl⟩
    · obtain ⟨k, e, hk, he⟩ := h.owned j d hj
      exact ⟨k, e, hmore k e hk, he⟩
    · exact ⟨_, _, hj, rfl, rfl, rfl⟩
  · rw [htable]
    rcases hcallers hj with hj | ⟨-, rfl⟩
    · exact h.received j d r hj hr
    · cases hr

theorem Ledgered.arrive_running {n : Nat} (h : Ledgered s) (hrun : s.table.flight? key = some n) :
    Ledgered (s.arrive key) := by
  obtain ⟨htable, hnew⟩ := arrive_waiter hrun
  obtain ⟨i, c, hi, hkey, hflight, hc⟩ := (h.running key n).1 hrun
  have hcallers {j : Nat} {d : Caller (Outcome μ ε)} (hj : (s.arrive key).caller? j = some d) :
      s.caller? j = some d ∨ d = ⟨key, n, .waiting⟩ := by
    rw [← hnew]
    exact (caller_arrive.1 hj).imp_right And.right
  have hmore : ∀ j d, s.caller? j = some d → (s.arrive key).caller? j = some d :=
    fun j d hj => caller_arrive.2 (Or.inl hj)
  refine ⟨fun j d hj => ?_, fun j k d e hj hk hd he hsame => ?_, fun k m => ?_, fun m r => ?_,
    fun k => ?_, fun j d hj => ?_, fun j d r hj hr => ?_⟩
  · rw [htable]
    rcases hcallers hj with hj | rfl
    · exact h.numbered j d hj
    · exact hflight ▸ h.numbered i c hi
  · rcases hcallers hj with hj | rfl
    · rcases hcallers hk with hk | rfl
      · exact h.owner_unique j k d e hj hk hd he hsame
      · cases he
    · cases hd
  · rw [exists_arrive, hnew, htable, ← h.running]
    simp [flight?, setWaiting, Stage.aloft]
  · rw [exists_arrive, hnew, htable, ← h.outcomes]
    simp [outcome?, setWaiting, Stage.outcome?]
  · rw [attachedTo_arrive, hnew, htable, count?_setWaiting, h.waitingFor]
    by_cases hk : k = key
    · subst hk
      simp [Stage.attached]
    · simp [hk, h.waiting]
  · rcases hcallers hj with hj | rfl
    · obtain ⟨k, e, hk, he⟩ := h.owned j d hj
      exact ⟨k, e, hmore k e hk, he⟩
    · exact ⟨i, c, hmore i c hi, hkey, hflight, Stage.owns_of_aloft hc⟩
  · rw [htable]
    rcases hcallers hj with hj | rfl
    · exact h.received j d r hj hr
    · cases hr

end

theorem Ledgered.start {cache : BuildCache μ ε} (h : cache.flights = {}) :
    Ledgered (⟨cache, []⟩ : Traffic μ ε) := by
  have htable : (⟨cache, []⟩ : Traffic μ ε).table = {} := h
  refine ⟨fun i c => nofun, fun i j c d => nofun, fun key n => ?_, fun n r => ?_, fun key => ?_,
    fun i c => nofun, fun i c r => nofun⟩ <;> rw [htable]
  · simp [flight?]
  · simp [outcome?]
  · simp [count?, attachedTo, counted]

theorem Ledgered.step (h : Ledgered s) (hstep : Step s s') : Ledgered s' := by
  cases hstep with
  | arrive key =>
    cases hrun : s.table.flight? key with
    | none => exact h.arrive_free hrun
    | some n => exact h.arrive_running hrun
  | start hi hc => exact h.silent hi (hc ▸ Stage.alike_building)
  | finish hi hc r => exact h.silent hi (hc ▸ Stage.alike_built r)
  | publish hi hc => exact h.publish hi hc
  | withdraw hi hc => exact h.withdraw hi hc
  | wake hi hc hr => exact h.wake hi hc hr
  | leave hi hc => exact h.leave hi hc
  | clear => exact h.of_cache rfl
  | record hflights => exact h.of_cache hflights

theorem Reachable.ledgered (h : Reachable s) : Ledgered s := by
  induction h with
  | start hflights => exact Ledgered.start hflights
  | step _ hstep ih => exact ih.step hstep

end Traffic

end ModelContracts
