import ModelContracts.Build.Artifact
import ModelContracts.Build.Flight
import ModelContracts.File.Tree

/-!
The cache that builds share: modules by their name, modules loaded from the artifact at a path,
whether a file was there when it was last looked for, and the flights of builds under way.
-/

namespace ModelContracts

inductive BuildState where
  | reused | compiled | failed
deriving DecidableEq, Repr

def BuildState.display : BuildState → String
  | .reused => "Reused"
  | .compiled => "Compiled"
  | .failed => "Failed"

/-- The source of a generated module and where it belongs. -/
structure ArtifactInfo where
  source : String
  references : List String
  path : Path
  version : String
  moduleName : String
deriving DecidableEq, Repr

structure BuildResult (μ : Type) where
  state : BuildState
  module : μ
  artifact : Option ArtifactInfo := none
  path : Option Path := none

namespace BuildResult

variable {μ : Type}

/-- The same result for a caller that did not build it. -/
def asReused (r : BuildResult μ) : BuildResult μ := { r with state := .reused }

def fromCache (m : μ) (p : Path) : BuildResult μ := { state := .reused, module := m, path := some p }

end BuildResult

/-- Flights are told apart by the file that they are for, whichever way its path is written. -/
structure BuildCache (μ ε : Type) where
  modules : List (String × μ) := []
  presence : List (Path × Bool) := []
  loaded : List (Path × μ) := []
  flights : FlightTable Location (Except ε (BuildResult μ)) := {}

namespace BuildCache

variable {μ ε : Type}

def module? (c : BuildCache μ ε) (name : String) : Option μ := c.modules.lookup name

def putModule (c : BuildCache μ ε) (name : String) (m : μ) : BuildCache μ ε :=
  { c with modules := setEntry name m c.modules }

def hasModule (c : BuildCache μ ε) (name : String) : Bool := (c.module? name).isSome

def loaded? (c : BuildCache μ ε) (p : Path) : Option μ := c.loaded.lookup p

def putLoaded (c : BuildCache μ ε) (p : Path) (m : μ) : BuildCache μ ε :=
  { c with loaded := setEntry p m c.loaded }

def forget (c : BuildCache μ ε) (p : Path) : BuildCache μ ε :=
  { c with loaded := c.loaded.filter (fun e => e.1 ≠ p), presence := setEntry p false c.presence }

def lookFor (c : BuildCache μ ε) (t : FileTree) (p : Path) : Bool × BuildCache μ ε :=
  (t.isFile p, { c with presence := setEntry p (t.isFile p) c.presence })

def known? (c : BuildCache μ ε) (p : Path) : Option Bool := c.presence.lookup p

/-- Drops all modules and records; flights under way go on. -/
def clear (c : BuildCache μ ε) : BuildCache μ ε :=
  { c with modules := [], presence := [], loaded := [] }

def size (c : BuildCache μ ε) : Nat := c.modules.length

def setFlights (c : BuildCache μ ε) (f : FlightTable Location (Except ε (BuildResult μ))) :
    BuildCache μ ε := { c with flights := f }

theorem loaded?_putLoaded (c : BuildCache μ ε) (p q : Path) (m : μ) :
    (c.putLoaded p m).loaded? q = if q = p then some m else c.loaded? q :=
  lookup_setEntry p q m c.loaded

theorem loaded?_forget (c : BuildCache μ ε) (p q : Path) :
    (c.forget p).loaded? q = if q = p then none else c.loaded? q := lookup_removed p q c.loaded

theorem module?_putModule (c : BuildCache μ ε) (name other : String) (m : μ) :
    (c.putModule name m).module? other = if other = name then some m else c.module? other :=
  lookup_setEntry name other m c.modules

theorem known?_lookFor (c : BuildCache μ ε) (t : FileTree) (p : Path) :
    (c.lookFor t p).2.known? p = some (t.isFile p) := by
  simp [lookFor, known?, lookup_setEntry]

end BuildCache

/-- How one flight went: what its owner and its waiters were given, and what could be seen of the
key while it was under way and afterwards. -/
structure FlightReport (μ ε : Type) where
  owner : Except ε (BuildResult μ)
  waiters : List (Except ε (BuildResult μ))
  duringRunning : Bool
  duringWaiting : Nat
  afterRunning : Bool
  afterWaiting : Nat

namespace BuildCache

variable {μ ε : Type}

/-- One caller builds with a known outcome, and others come for the same file meanwhile. -/
def flight (c : BuildCache μ ε) (key : Location) (outcome : Except ε (BuildResult μ))
    (others : List Location) : FlightReport μ ε × BuildCache μ ε :=
  let (role, t) := c.flights.join key
  let (roles, t) := t.attachAll others
  let during := t
  let t := match role with
    | .owner n => t.publish n outcome
    | .waiter _ => t
  let t := t.withdraw key
  let (found, t) := t.wakeAll roles
  ({ owner := outcome
     waiters := found.filterMap fun r => r.map fun r => r.map BuildResult.asReused
     duringRunning := during.isRunning key, duringWaiting := during.waitingFor key
     afterRunning := t.isRunning key, afterWaiting := t.waitingFor key }, c.setFlights t)

end BuildCache

end ModelContracts
