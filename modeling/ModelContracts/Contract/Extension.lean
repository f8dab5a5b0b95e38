import ModelContracts.Contract.Identity
import ModelContracts.Text.Order

/-!
Extending contracts by others. A request names a contract, or what a contract of the module was
derived from: it is found by the last segment of the name that the contract's identity marker
records, and must be found once. The registry keeps the extensions of each target in the order of
their registration.
-/

namespace ModelContracts

/-- What is asked for: a class or a name. -/
inductive ContractRequest where
  | cls (c : ClassId)
  | name (text : String)
deriving DecidableEq, Repr

inductive ExtensionError where
  | missing (name : String)
  | ambiguous (name : String) (found : List ClassId)
  /-- An identity marker that records no text. -/
  | malformed (v : Value)

namespace ExtensionError

def message? : ExtensionError → Option String
  | .missing name => some ("Cannot locate the generated contract for " ++ name)
  | .ambiguous name found =>
    let names := Text.sorted (found.map ClassId.simpleName)
    some ("Ambiguous contracts (" ++ Text.commaList names ++ ") for " ++ name)
  | .malformed _ => none

def name? : ExtensionError → Option String
  | .missing name | .ambiguous name _ => some name
  | .malformed _ => none

end ExtensionError

namespace ContractRequest

def simpleName : ContractRequest → String
  | .cls c => c.simpleName
  | .name text => Text.lastPiece '.' text

end ContractRequest

namespace World

variable (w : World)

def moduleClasses (m : Module) : List ClassId :=
  ((m.attributes.mergeSort fun a b => a.1 ≤ b.1).filterMap fun a => a.2.class?).eraseDups

def recordedSimpleNames (c : ClassId) : Except ExtensionError (List String) :=
  (w.classMarkersOf c MarkerShape.className.kind).mapM fun m =>
    match (m.field "type_name").text? with
    | some s => .ok (Marker.simpleName s)
    | none => .error (.malformed (m.field "type_name"))

def recorded (m : Module) (simpleName : String) : Except ExtensionError (List ClassId) :=
  (moduleClasses m).filterM fun c => return (← w.recordedSimpleNames c).contains simpleName

def resolveContract (m : Module) (r : ContractRequest) : Except ExtensionError ClassId :=
  let search := do
    match ← w.recorded m r.simpleName with
    | [] => throw (.missing r.simpleName)
    | [c] => return c
    | found => throw (.ambiguous r.simpleName found)
  match r with
  | .cls c => if w.derives c ClassId.modelNode then .ok c else search
  | .name _ => search

end World

/-- The extensions of each target, the targets in the order of their first registration. -/
structure ExtensionRegistry where
  entries : List (ClassId × List ClassId) := []

namespace ExtensionRegistry

def get (r : ExtensionRegistry) (target : ClassId) : List ClassId :=
  (r.entries.lookup target).getD []

def add (r : ExtensionRegistry) (target ext : ClassId) : ExtensionRegistry :=
  ⟨setEntry target (r.get target ++ [ext]) r.entries⟩

def targets (r : ExtensionRegistry) : List ClassId := r.entries.map (·.1)

def contains (r : ExtensionRegistry) (target : ClassId) : Bool := r.targets.contains target

def size (r : ExtensionRegistry) : Nat := r.entries.length

/-- Registers an extension, both found in a module; the extension is looked for first. -/
def extend (w : World) (r : ExtensionRegistry) (target ext : ContractRequest) (m : Module) :
    Except ExtensionError (ClassId × ClassId × ExtensionRegistry) := do
  let e ← w.resolveContract m ext
  let t ← w.resolveContract m target
  return (t, e, r.add t e)

theorem get_add (r : ExtensionRegistry) (target ext c : ClassId) :
    (r.add target ext).get c = if c = target then r.get target ++ [ext] else r.get c := by
  simp only [get, add, lookup_setEntry]
  split <;> simp_all

end ExtensionRegistry

end ModelContracts
