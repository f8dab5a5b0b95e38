import ModelContracts.Build.Cache

/-!
Callers that share flights. Each caller registers a flight or attaches to the one under way, and goes
on in single steps, which those of other callers come between in any order; the cache may be cleared
or filled at any moment. The tables change as the caller's step says: the lemmas here tell how look-ups
in them change.
-/

namespace ModelContracts

namespace FlightTable

variable {κ ρ : Type} [DecidableEq κ] (t : FlightTable κ ρ) (key k : κ)

/-- The flight of a key that is under way. -/
def flight? : Option Nat := t.running.lookup key

/-- The entry of the counter for a key. -/
def count? : Option Nat := t.waiting.lookup key

/-- An entry of the counter, which has none for nobody. -/
def counted (n : Nat) : Option Nat := if n = 0 then none else some n

theorem counted_getD (n : Nat) : (counted n).getD 0 = n := by
  unfold counted
  split
  next h => simp [h]
  · rfl

theorem waitingFor_eq : t.waitingFor key = (t.count? key).getD 0 := rfl

theorem count?_setWaiting (n : Nat) :
    (t.setWaiting key n).count? k = if k = key then counted n else t.count? k := by
  unfold setWaiting counted count?
  by_cases hn : n = 0
  · simp only [hn, if_true]
    exact lookup_removed key k t.waiting
  · simp only [hn, if_false]
    exact lookup_setEntry key k n t.waiting

theorem flight?_withdraw :
    (t.withdraw key).flight? k = if k = key then none else t.flight? k :=
  lookup_removed key k t.running

omit [DecidableEq κ] in
theorem outcome?_publish (n m : Nat) (r : ρ) :
    (t.publish n r).outcome? m = if m = n then some r else t.outcome? m :=
  lookup_setEntry n m r t.outcomes

theorem join_of_running {n : Nat} (h : t.flight? key = some n) :
    t.join key = (.waiter n, t.setWaiting key (t.waitingFor key + 1)) := by
  unfold flight? at h
  unfold join
  rw [h]

theorem join_of_free (h : t.flight? key = none) :
    t.join key = (.owner t.next,
      { t with running := t.running ++ [(key, t.next)], next := t.next + 1 }) := by
  unfold flight? at h
  unfold join
  rw [h]

theorem lookup_append_free {l : List (κ × Nat)} (h : l.lookup key = none) (n : Nat) :
    (l ++ [(key, n)]).lookup k = if k = key then some n else l.lookup k := by
  rw [List.lookup_append]
  by_cases hk : k = key
  · simp [hk, h]
  · have hne : (k == key) = false := beq_false_of_ne hk
    simp [hk, List.lookup_cons, hne]

end FlightTable

/-- How far a caller has come. The owner of a flight runs its build, publishes the outcome and removes
the flight; a waiter wakes with what it was given, and leaves. -/
inductive Stage (ρ : Type) where
  | opened
  | building
  | built (r : ρ)
  | published (r : ρ)
  | landed (r : ρ)
  | waiting
  | woken (r : ρ)
  | parted (r : ρ)

namespace Stage

variable {ρ : Type}

def owns : Stage ρ → Bool
  | .opened | .building | .built _ | .published _ | .landed _ => true
  | .waiting | .woken _ | .parted _ => false

/-- Between the registration of a flight and its removal. -/
def aloft : Stage ρ → Bool
  | .opened | .building | .built _ | .published _ => true
  | .landed _ | .waiting | .woken _ | .parted _ => false

/-- Between the attachment to a flight and the departure from it. -/
def attached : Stage ρ → Bool
  | .waiting | .woken _ => true
  | .opened | .building | .built _ | .published _ | .landed _ | .parted _ => false

/-- What the owner has published. -/
def outcome? : Stage ρ → Option ρ
  | .published r | .landed r => some r
  | .opened | .building | .built _ | .waiting | .woken _ | .parted _ => none

/-- What a waiter was given. -/
def received? : Stage ρ → Option ρ
  | .woken r | .parted r => some r
  | .opened | .building | .built _ | .published _ | .landed _ | .waiting => none

def returned : Stage ρ → Bool
  | .landed _ | .parted _ => true
  | .opened | .building | .built _ | .published _ | .waiting | .woken _ => false

/-- Stages that the tables do not tell apart. -/
structure Alike (g g' : Stage ρ) : Prop where
  owns : g.owns = g'.owns
  aloft : g.aloft = g'.aloft
  outcome : g.outcome? = g'.outcome?
  attached : g.attached = g'.attached
  received : g.received? = g'.received?

theorem alike_building : Alike (.building : Stage ρ) .opened := ⟨rfl, rfl, rfl, rfl, rfl⟩

theorem alike_built (r : ρ) : Alike (.built r) .building := ⟨rfl, rfl, rfl, rfl, rfl⟩

/-- How many steps the caller has before it. -/
def ahead : Stage ρ → Nat
  | .opened => 4
  | .building => 3
  | .built _ | .waiting => 2
  | .published _ | .woken _ => 1
  | .landed _ | .parted _ => 0

theorem owns_of_aloft {g : Stage ρ} (h : g.aloft = true) : g.owns = true := by
  cases g with
  | opened | building | built | published => rfl
  | landed | waiting | woken | parted => cases h

theorem owns_of_outcome? {g : Stage ρ} {r : ρ} (h : g.outcome? = some r) : g.owns = true := by
  cases g with
  | published | landed => rfl
  | opened | building | built | waiting | woken | parted => cases h

theorem returned_of_aloft {g : Stage ρ} (h : g.aloft = true) : g.returned = false := by
  cases g with
  | opened | building | built | published => rfl
  | landed | waiting | woken | parted => cases h

theorem returned_of_attached {g : Stage ρ} (h : g.attached = true) : g.returned = false := by
  cases g with
  | waiting | woken => rfl
  | opened | building | built | published | landed | parted => cases h

/-- An owner is on its way or has landed. -/
theorem aloft_or_landed {g : Stage ρ} (h : g.owns = true) : g.aloft = true ∨ ∃ r, g = .landed r := by
  cases g with
  | landed r => exact Or.inr ⟨r, rfl⟩
  | opened | building | built | published => exact Or.inl rfl
  | waiting | woken | parted => cases h

end Stage

structure Caller (ρ : Type) where
  key : Location
  flight : Nat
  stage : Stage ρ

def Caller.moved {ρ : Type} (c : Caller ρ) (g : Stage ρ) : Caller ρ := { c with stage := g }

/-- A cache with its callers so far, the first one first. -/
structure Traffic (μ ε : Type) where
  cache : BuildCache μ ε
  callers : List (Caller (Except ε (BuildResult μ)))

namespace Traffic

variable {μ ε : Type}

abbrev Outcome (μ ε : Type) := Except ε (BuildResult μ)

abbrev table (s : Traffic μ ε) : FlightTable Location (Outcome μ ε) := s.cache.flights

abbrev caller? (s : Traffic μ ε) (i : Nat) : Option (Caller (Outcome μ ε)) := s.callers[i]?

/-- What the caller is that joined in a role. -/
def newcomer (key : Location) : FlightRole → Caller (Outcome μ ε)
  | .owner n => ⟨key, n, .opened⟩
  | .waiter n => ⟨key, n, .waiting⟩

def arrive (s : Traffic μ ε) (key : Location) : Traffic μ ε where
  cache := s.cache.setFlights (s.table.join key).2
  callers := s.callers ++ [newcomer key (s.table.join key).1]

/-- The caller at a place goes on, and the table changes. -/
def advance (s : Traffic μ ε) (i : Nat) (c : Caller (Outcome μ ε))
    (t : FlightTable Location (Outcome μ ε)) : Traffic μ ε where
  cache := s.cache.setFlights t
  callers := s.callers.set i c

inductive Step : Traffic μ ε → Traffic μ ε → Prop
  | arrive (s : Traffic μ ε) (key : Location) : Step s (s.arrive key)
  | start {s : Traffic μ ε} {i : Nat} {c : Caller (Outcome μ ε)} (hi : s.caller? i = some c)
      (hc : c.stage = .opened) : Step s (s.advance i (c.moved .building) s.table)
  | finish {s : Traffic μ ε} {i : Nat} {c : Caller (Outcome μ ε)} (hi : s.caller? i = some c)
      (hc : c.stage = .building) (r : Outcome μ ε) : Step s (s.advance i (c.moved (.built r)) s.table)
  | publish {s : Traffic μ ε} {i : Nat} {c : Caller (Outcome μ ε)} {r : Outcome μ ε}
      (hi : s.caller? i = some c) (hc : c.stage = .built r) :
      Step s (s.advance i (c.moved (.published r)) (s.table.publish c.flight r))
  | withdraw {s : Traffic μ ε} {i : Nat} {c : Caller (Outcome μ ε)} {r : Outcome μ ε}
      (hi : s.caller? i = some c) (hc : c.stage = .published r) :
      Step s (s.advance i (c.moved (.landed r)) (s.table.withdraw c.key))
  | wake {s : Traffic μ ε} {i : Nat} {c : Caller (Outcome μ ε)} {r : Outcome μ ε}
      (hi : s.caller? i = some c) (hc : c.stage = .waiting)
      (hr : s.table.outcome? c.flight = some r) :
      Step s (s.advance i (c.moved (.woken (r.map BuildResult.asReused))) s.table)
  | leave {s : Traffic μ ε} {i : Nat} {c : Caller (Outcome μ ε)} {r : Outcome μ ε}
      (hi : s.caller? i = some c) (hc : c.stage = .woken r) :
      Step s (s.advance i (c.moved (.parted r)) (s.table.leave c.key))
  | clear (s : Traffic μ ε) : Step s { s with cache := s.cache.clear }
  /-- A build that runs records what it likes, but no flights. -/
  | record (s : Traffic μ ε) {cache : BuildCache μ ε} (h : cache.flights = s.cache.flights) :
      Step s { s with cache := cache }

/-- What can come of a new cache. -/
inductive Reachable : Traffic μ ε → Prop
  | start {cache : BuildCache μ ε} (h : cache.flights = {}) : Reachable ⟨cache, []⟩
  | step {s s' : Traffic μ ε} (h : Reachable s) (hstep : Step s s') : Reachable s'

/-- How many callers of a key are attached. -/
def attachedTo (s : Traffic μ ε) (key : Location) : Nat :=
  s.callers.countP fun c => c.key = key && c.stage.attached

/-! The callers after a step. -/

section

variable {s : Traffic μ ε} {i : Nat} {c : Caller (Outcome μ ε)}

@[simp] theorem table_advance (c' : Caller (Outcome μ ε))
    (t : FlightTable Location (Outcome μ ε)) : (s.advance i c' t).table = t := rfl

theorem caller_advance_self (hi : s.caller? i = some c) (c' : Caller (Outcome μ ε))
    (t : FlightTable Location (Outcome μ ε)) : (s.advance i c' t).caller? i = some c' := by
  have hlt : i < s.callers.length := (List.getElem?_eq_some_iff.1 hi).1
  simp [advance, hlt]

theorem caller_advance_ne {j : Nat} (hj : j ≠ i) (c' : Caller (Outcome μ ε))
    (t : FlightTable Location (Outcome μ ε)) :
    (s.advance i c' t).caller? j = s.caller? j := by
  simp [advance, List.getElem?_set_ne hj.symm]

/-- A caller after a step is the one that went on, or was there before. -/
theorem caller_advance {j : Nat} {c' d : Caller (Outcome μ ε)}
    {t : FlightTable Location (Outcome μ ε)} (hi : s.caller? i = some c)
    (hd : (s.advance i c' t).caller? j = some d) :
    j = i ∧ d = c' ∨ j ≠ i ∧ s.caller? j = some d := by
  by_cases hj : j = i
  · subst hj
    rw [caller_advance_self hi] at hd
    exact Or.inl ⟨rfl, (Option.some.inj hd).symm⟩
  · rw [caller_advance_ne hj] at hd
    exact Or.inr ⟨hj, hd⟩

theorem caller_arrive {key : Location} {j : Nat} {d : Caller (Outcome μ ε)} :
    (s.arrive key).caller? j = some d ↔ s.caller? j = some d ∨
      j = s.callers.length ∧ d = newcomer key (s.table.join key).1 := by
  simp only [arrive, caller?]
  by_cases hj : j < s.callers.length
  · rw [List.getElem?_append_left hj]
    constructor
    · exact Or.inl
    · rintro (h | ⟨rfl, -⟩)
      · exact h
      · exact absurd hj (Nat.lt_irrefl _)
  · have hnone : s.callers[j]? = none := List.getElem?_eq_none (Nat.le_of_not_lt hj)
    rw [List.getElem?_append_right (Nat.le_of_not_lt hj), hnone, List.getElem?_singleton]
    split
    next hzero =>
      have hlen : j = s.callers.length := by omega
      simp [hlen, eq_comm]
    next hzero =>
      have hlen : j ≠ s.callers.length := by omega
      simp [hlen]

theorem attachedTo_arrive (key k : Location) :
    (s.arrive key).attachedTo k = s.attachedTo k +
      if k = key ∧ (newcomer (μ := μ) (ε := ε) key (s.table.join key).1).stage.attached = true
        then 1 else 0 := by
  have hkey : (newcomer (μ := μ) (ε := ε) key (s.table.join key).1).key = key := by
    cases (s.table.join key).1 <;> rfl
  simp only [attachedTo, arrive, List.countP_append, List.countP_singleton, hkey]
  simp [eq_comm (a := key)]

/-- Going on changes the count by what the caller counted and counts. -/
theorem attachedTo_advance (hi : s.caller? i = some c) (g : Stage (Outcome μ ε))
    (t : FlightTable Location (Outcome μ ε)) (k : Location) :
    (s.advance i (c.moved g) t).attachedTo k + (if c.key = k ∧ c.stage.attached = true then 1 else 0) =
      s.attachedTo k + if c.key = k ∧ g.attached = true then 1 else 0 := by
  obtain ⟨hlt, hget⟩ := List.getElem?_eq_some_iff.1 hi
  have hpos : (c.key = k ∧ c.stage.attached = true) → 0 < s.attachedTo k := by
    rintro ⟨hkey, hatt⟩
    refine List.countP_pos_iff.2 ⟨c, List.mem_of_getElem? hi, ?_⟩
    simp [hkey, hatt]
  simp only [attachedTo, advance, List.countP_set hlt, hget, Caller.moved]
  by_cases hold : c.key = k ∧ c.stage.attached = true
  · have hone := hpos hold
    simp only [attachedTo] at hone
    simp only [hold]
    simp
    omega
  · simp only [hold, if_false]
    have hfalse : (c.key = k && c.stage.attached) = false := by
      simpa using hold
    simp [hfalse]

end

end Traffic

end ModelContracts
