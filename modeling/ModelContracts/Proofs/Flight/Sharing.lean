import Mathlib.Algebra.GroupWithZero.Nat
import Mathlib.Logic.Relation
import ModelContracts.Proofs.Flight.Orderly

/-!
Single flight. The main statement gathers what holds at every moment of callers that share flights:
one of them builds for a key, the tables tell who is on the way, and every waiter is given just what
the owner of its flight published. And whatever happened so far, all callers can still return.
-/

namespace ModelContracts

namespace Traffic

open FlightTable

variable {μ ε : Type} {s s' : Traffic μ ε}

/-- What an owner published and what a waiter was given: the same module and artifact, as reused, or
the same error. -/
inductive Shared : Outcome μ ε → Outcome μ ε → Prop
  | module {made given : BuildResult μ} (hstate : given.state = .reused)
      (hmodule : given.module = made.module) (hartifact : given.artifact = made.artifact) :
      Shared (.ok made) (.ok given)
  | error (e : ε) : Shared (.error e) (.error e)

theorem shared_asReused (r : Outcome μ ε) : Shared r (r.map BuildResult.asReused) := by
  cases r with
  | error e => exact .error e
  | ok made => exact .module rfl rfl rfl

structure SingleFlight (s : Traffic μ ε) : Prop where
  builder_unique : ∀ i j c d, s.caller? i = some c → s.caller? j = some d →
    c.stage = .building → d.stage = .building → c.key = d.key → i = j
  /-- A key is in the table while its owner is between registration and removal, and only then. -/
  flight_iff : ∀ key n, s.table.flight? key = some n ↔
    ∃ i c, s.caller? i = some c ∧ c.key = key ∧ c.flight = n ∧ c.stage.aloft = true
  owner_alone : ∀ i j c d, s.caller? i = some c → s.caller? j = some d →
    c.stage.aloft = true → d.stage.aloft = true → c.key = d.key → i = j
  /-- The entry that an owner is about to remove is its own. -/
  removes_own : ∀ i c r, s.caller? i = some c → c.stage = .published r →
    s.table.flight? c.key = some c.flight
  count_eq : ∀ key, s.table.count? key = counted (s.attachedTo key)
  /-- A waiter finds itself counted when it leaves. -/
  count_found : ∀ i c, s.caller? i = some c → c.stage.attached = true →
    ∃ n, s.table.count? c.key = some (n + 1)
  /-- What a waiter was given is what the one owner of its flight published. -/
  given : ∀ i c r, s.caller? i = some c → c.stage.received? = some r →
    ∃ j d r₀, s.caller? j = some d ∧ d.key = c.key ∧ d.flight = c.flight ∧
      d.stage.outcome? = some r₀ ∧ Shared r₀ r ∧
      ∀ k e, s.caller? k = some e → e.stage.owns = true → e.flight = c.flight → k = j
  empty : (∀ c ∈ s.callers, c.stage.returned = true) → s.table.running = [] ∧ s.table.waiting = []

theorem attachedTo_pos {i : Nat} {c : Caller (Outcome μ ε)} (hi : s.caller? i = some c)
    (hc : c.stage.attached = true) : 0 < s.attachedTo c.key :=
  List.countP_pos_iff.2 ⟨c, List.mem_of_getElem? hi, by simp [hc]⟩

theorem eq_nil_of_lookup {α β : Type} [DecidableEq α] {l : List (α × β)}
    (h : ∀ a, l.lookup a = none) : l = [] := by
  cases l with
  | nil => rfl
  | cons e rest =>
    obtain ⟨a, b⟩ := e
    have hself := h a
    rw [lookup_cons_ite, if_pos rfl] at hself
    cases hself

theorem Ledgered.given (h : Ledgered s) {i : Nat} {c : Caller (Outcome μ ε)} {r : Outcome μ ε}
    (hi : s.caller? i = some c) (hr : c.stage.received? = some r) :
    ∃ j d r₀, s.caller? j = some d ∧ d.key = c.key ∧ d.flight = c.flight ∧
      d.stage.outcome? = some r₀ ∧ Shared r₀ r ∧
      ∀ k e, s.caller? k = some e → e.stage.owns = true → e.flight = c.flight → k = j := by
  obtain ⟨r₀, hr₀, rfl⟩ := h.received i c r hi hr
  obtain ⟨j, d, hj, hflight, hd⟩ := (h.outcomes _ _).1 hr₀
  have howns := Stage.owns_of_outcome? hd
  have halone : ∀ k e, s.caller? k = some e → e.stage.owns = true → e.flight = c.flight → k = j :=
    fun k e hk he hsame => h.owner_unique k j e d hk hj he howns (hsame.trans hflight.symm)
  obtain ⟨k, e, hk, hkey, hsame, he⟩ := h.owned i c hi
  obtain rfl : k = j := halone k e hk he hsame
  obtain rfl : e = d := Option.some.inj (hk.symm.trans hj)
  exact ⟨k, e, r₀, hk, hkey, hflight, hd, shared_asReused r₀, halone⟩

theorem Ledgered.empty (h : Ledgered s) (hall : ∀ c ∈ s.callers, c.stage.returned = true) :
    s.table.running = [] ∧ s.table.waiting = [] := by
  constructor
  · refine eq_nil_of_lookup fun key => Option.eq_none_iff_forall_ne_some.2 fun n hn => ?_
    obtain ⟨i, c, hi, -, -, hc⟩ := (h.running key n).1 hn
    have hreturned := hall c (List.mem_of_getElem? hi)
    rw [Stage.returned_of_aloft hc] at hreturned
    cases hreturned
  · refine eq_nil_of_lookup fun key => ?_
    have hzero : s.attachedTo key = 0 := by
      refine List.countP_eq_zero.2 fun c hc hcounted => ?_
      have hreturned := hall c hc
      obtain ⟨-, hatt⟩ := Bool.and_eq_true_iff.1 hcounted
      rw [Stage.returned_of_attached hatt] at hreturned
      cases hreturned
    have hcount := h.waiting key
    rw [hzero] at hcount
    exact hcount

theorem Ledgered.singleFlight (h : Ledgered s) : SingleFlight s where
  builder_unique i j c d hi hj hc hd := h.aloft_unique hi hj (by rw [hc]; rfl) (by rw [hd]; rfl)
  flight_iff := h.running
  owner_alone i j c d hi hj := h.aloft_unique hi hj
  removes_own i c r hi hc := (h.running _ _).2 ⟨i, c, hi, rfl, rfl, by rw [hc]; rfl⟩
  count_eq := h.waiting
  count_found i c hi hc := by
    obtain ⟨n, hn⟩ := Nat.exists_eq_succ_of_ne_zero (Nat.ne_of_gt (attachedTo_pos hi hc))
    refine ⟨n, ?_⟩
    rw [h.waiting, hn]
    rfl
  given _ _ _ := h.given
  empty := h.empty

/-! All callers can return. -/

/-- How many steps all callers together have before them. -/
def ahead (s : Traffic μ ε) : Nat := (s.callers.map (·.stage.ahead)).sum

theorem sum_map_set {α : Type} (f : α → Nat) {l : List α} {i : Nat} {a : α} (hi : l[i]? = some a)
    (b : α) : ((l.set i b).map f).sum + f a = (l.map f).sum + f b := by
  induction l generalizing i with
  | nil => cases hi
  | cons c l ih =>
    cases i with
    | zero =>
      cases hi
      simp only [List.set_cons_zero, List.map_cons, List.sum_cons]
      omega
    | succ i =>
      have hrest := ih (i := i) hi
      simp only [List.set_cons_succ, List.map_cons, List.sum_cons]
      omega

theorem ahead_advance {i : Nat} {c : Caller (Outcome μ ε)} (hi : s.caller? i = some c)
    {g : Stage (Outcome μ ε)} (hless : g.ahead < c.stage.ahead)
    (t : FlightTable Location (Outcome μ ε)) : (s.advance i (c.moved g) t).ahead < s.ahead := by
  have hsum : (s.advance i (c.moved g) t).ahead + c.stage.ahead = s.ahead + g.ahead :=
    sum_map_set (fun d : Caller (Outcome μ ε) => d.stage.ahead) hi (c.moved g)
  omega

theorem ahead_pos (h : ¬ ∀ c ∈ s.callers, c.stage.returned = true) :
    ∃ i c, s.caller? i = some c ∧ c.stage.returned = false := by
  simp only [Classical.not_forall, Bool.not_eq_true] at h
  obtain ⟨c, hmem, hc⟩ := h
  obtain ⟨i, hi⟩ := List.getElem?_of_mem hmem
  exact ⟨i, c, hi, hc⟩

/-- A step by which the callers come closer to their return. -/
def Closer (s s' : Traffic μ ε) : Prop :=
  Step s s' ∧ s'.callers.length = s.callers.length ∧ s'.ahead < s.ahead

theorem closer_advance {i : Nat} {c : Caller (Outcome μ ε)} {g : Stage (Outcome μ ε)}
    {t : FlightTable Location (Outcome μ ε)} (hi : s.caller? i = some c)
    (hstep : Step s (s.advance i (c.moved g) t)) (hless : g.ahead < c.stage.ahead) :
    ∃ s', Closer s s' :=
  ⟨_, hstep, by simp [advance], ahead_advance hi hless t⟩

/-- An owner on its way can always go on. -/
theorem owner_goes_on {i : Nat} {c : Caller (Outcome μ ε)} (r : Outcome μ ε)
    (hi : s.caller? i = some c) (hc : c.stage.aloft = true) : ∃ s', Closer s s' := by
  cases hstage : c.stage with
  | opened => exact closer_advance hi (.start hi hstage) (by rw [hstage]; simp [Stage.ahead])
  | building => exact closer_advance hi (.finish hi hstage r) (by rw [hstage]; simp [Stage.ahead])
  | built r' => exact closer_advance hi (.publish hi hstage) (by rw [hstage]; simp [Stage.ahead])
  | published r' =>
    exact closer_advance hi (.withdraw hi hstage) (by rw [hstage]; simp [Stage.ahead])
  | landed | waiting | woken | parted =>
    rw [hstage] at hc
    cases hc

/-- As long as a caller has not returned, it or the owner of its flight can go on. -/
theorem Ledgered.goes_on (h : Ledgered s) {i : Nat} {c : Caller (Outcome μ ε)} (r : Outcome μ ε)
    (hi : s.caller? i = some c) (hc : c.stage.returned = false) : ∃ s', Closer s s' := by
  cases hstage : c.stage with
  | opened | building | built | published => exact owner_goes_on r hi (by rw [hstage]; rfl)
  | waiting =>
    obtain ⟨j, d, hj, -, hflight, hd⟩ := h.owned i c hi
    rcases Stage.aloft_or_landed hd with haloft | ⟨r₀, hlanded⟩
    · exact owner_goes_on r hj haloft
    · have hout : s.table.outcome? c.flight = some r₀ :=
        (h.outcomes _ _).2 ⟨j, d, hj, hflight, by rw [hlanded]; rfl⟩
      exact closer_advance hi (.wake hi hstage hout) (by rw [hstage]; simp [Stage.ahead])
  | woken r' => exact closer_advance hi (.leave hi hstage) (by rw [hstage]; simp [Stage.ahead])
  | landed | parted =>
    rw [hstage] at hc
    cases hc

theorem Reachable.can_return (h : Reachable s) (r : Outcome μ ε) :
    ∃ s', Relation.ReflTransGen Step s s' ∧ s'.callers.length = s.callers.length ∧
      ∀ c ∈ s'.callers, c.stage.returned = true := by
  induction hn : s.ahead using Nat.strongRecOn generalizing s with
  | ind n ih =>
    by_cases hall : ∀ c ∈ s.callers, c.stage.returned = true
    · exact ⟨s, .refl, rfl, hall⟩
    · obtain ⟨i, c, hi, hc⟩ := ahead_pos hall
      obtain ⟨t, hstep, hlength, hless⟩ := h.ledgered.goes_on r hi hc
      obtain ⟨s', hsteps, hsame, hreturned⟩ := ih t.ahead (hn ▸ hless) (h.step hstep) rfl
      exact ⟨s', .head hstep hsteps, hsame.trans hlength, hreturned⟩

/-- Whatever the callers did so far and in whatever order: they share flights as they should, and if
builds end, with any outcome, all can return. -/
theorem shares_flights (h : Reachable s) : SingleFlight s ∧
    ∀ _ : Outcome μ ε, ∃ s', Relation.ReflTransGen Step s s' ∧
      s'.callers.length = s.callers.length ∧ ∀ c ∈ s'.callers, c.stage.returned = true :=
  ⟨h.ledgered.singleFlight, h.can_return⟩

/-! A straggler: it has woken but not left when the next flight for its key is under way. -/

def straggling : Traffic Unit Unit where
  cache := { flights := { running := [(["App.py"], 1)], waiting := [(["App.py"], 1)], next := 2
                          outcomes := [(0, .ok { state := .compiled, module := () })] } }
  callers := [⟨["App.py"], 0, .landed (.ok { state := .compiled, module := () })⟩,
    ⟨["App.py"], 0, .woken (.ok { state := .reused, module := () })⟩, ⟨["App.py"], 1, .opened⟩]

theorem straggling_reachable : Reachable straggling := by
  have hnew : Reachable (⟨{}, []⟩ : Traffic Unit Unit) := .start rfl
  have howner := (hnew.step (.arrive _ ["App.py"])).step (.start (i := 0) rfl rfl)
  have hattached := howner.step (.arrive _ ["App.py"])
  have hbuilt := hattached.step (.finish (i := 0) rfl rfl (.ok { state := .compiled, module := () }))
  have hlanded := (hbuilt.step (.publish (i := 0) rfl rfl)).step (.withdraw (i := 0) rfl rfl)
  have hnext := (hlanded.step (.clear _)).step (.arrive _ ["App.py"])
  have hwoken :=
    hnext.step (.wake (i := 1) (r := .ok { state := .compiled, module := () }) rfl rfl rfl)
  refine Eq.mp (congrArg Reachable ?_) hwoken
  rfl

theorem straggling_shares : SingleFlight straggling ∧
    ∀ _ : Outcome Unit Unit, ∃ s', Relation.ReflTransGen Step straggling s' ∧
      s'.callers.length = 3 ∧ ∀ c ∈ s'.callers, c.stage.returned = true :=
  shares_flights straggling_reachable

end Traffic

end ModelContracts
