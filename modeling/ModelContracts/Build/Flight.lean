import ModelContracts.World.Basic

/-!
Single flight: of the callers that ask for the same thing at the same time one does the work, and
the others wait for its outcome. The owner registers a flight, publishes its outcome and removes
the flight; a caller that comes in between attaches to the flight, and is counted until it leaves.
-/

namespace ModelContracts

/-- What a caller is to the flight that it joins. -/
inductive FlightRole where
  | owner (flight : Nat)
  | waiter (flight : Nat)
deriving DecidableEq, Repr

/-- Flights by their key. Outcomes are kept by the number of the flight, since waiters look them up
after the flight has been removed. -/
structure FlightTable (κ ρ : Type) where
  running : List (κ × Nat) := []
  outcomes : List (Nat × ρ) := []
  waiting : List (κ × Nat) := []
  next : Nat := 0

namespace FlightTable

variable {κ ρ : Type} [DecidableEq κ]

def isRunning (t : FlightTable κ ρ) (key : κ) : Bool := (t.running.lookup key).isSome

/-- How many callers are attached to the flight of a key and have not left. -/
def waitingFor (t : FlightTable κ ρ) (key : κ) : Nat := (t.waiting.lookup key).getD 0

def setWaiting (t : FlightTable κ ρ) (key : κ) (n : Nat) : FlightTable κ ρ :=
  { t with waiting :=
      if n = 0 then t.waiting.filter fun e => e.1 ≠ key else setEntry key n t.waiting }

def join (t : FlightTable κ ρ) (key : κ) : FlightRole × FlightTable κ ρ :=
  match t.running.lookup key with
  | some n => (.waiter n, t.setWaiting key (t.waitingFor key + 1))
  | none => (.owner t.next, { t with running := t.running ++ [(key, t.next)], next := t.next + 1 })

def publish (t : FlightTable κ ρ) (flight : Nat) (r : ρ) : FlightTable κ ρ :=
  { t with outcomes := setEntry flight r t.outcomes }

def withdraw (t : FlightTable κ ρ) (key : κ) : FlightTable κ ρ :=
  { t with running := t.running.filter fun e => e.1 ≠ key }

def outcome? (t : FlightTable κ ρ) (flight : Nat) : Option ρ := t.outcomes.lookup flight

/-- A waiter is no longer counted. -/
def leave (t : FlightTable κ ρ) (key : κ) : FlightTable κ ρ :=
  t.setWaiting key (t.waitingFor key - 1)

def attachAll (t : FlightTable κ ρ) : List κ → List (κ × FlightRole) × FlightTable κ ρ
  | [] => ([], t)
  | key :: rest =>
    let (role, t) := t.join key
    let (roles, t) := attachAll t rest
    ((key, role) :: roles, t)

/-- The waiters wake and leave one after the other, each with the outcome that it finds. -/
def wakeAll (t : FlightTable κ ρ) : List (κ × FlightRole) → List (Option ρ) × FlightTable κ ρ
  | [] => ([], t)
  | (key, .waiter n) :: rest =>
    let (found, t') := wakeAll (t.leave key) rest
    (t.outcome? n :: found, t')
  | (_, .owner _) :: rest => wakeAll t rest

end FlightTable

end ModelContracts
