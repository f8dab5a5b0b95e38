import ModelContracts.Annotation.RuleBook
import ModelContracts.Contract.Basic
import ModelContracts.Contract.Source

/-!
Deriving contracts. A contract is put on the list before its members are walked, so that properties
that lead back to its class find it; what it reaches is derived right away, below its name. Every
class met gets one contract, and no two classes may share a generated name.
-/

namespace ModelContracts

/-- What stays the same while the contracts of one module are derived. -/
structure Synthesizer where
  world : World
  stem : String
  version : String := ""
  /-- What the names of top-level contracts start with. -/
  namePrefix : String := "IModel"
  book : RuleBook := RuleBook.stock

structure Draft where
  emission : Emission
  contracts : List Contract := []
  /-- The place on the list of the contract of each class. -/
  arena : List (ClassId × Nat) := []
  /-- The class that each generated name was given to. -/
  names : List (String × ClassId) := []

abbrev Synthesis := ExceptT EmissionError (StateM Draft)

namespace Draft

def has (d : Draft) (c : ClassId) : Bool := (d.arena.lookup c).isSome

def contract? (d : Draft) (c : ClassId) : Option Contract :=
  (d.arena.lookup c).bind fun i => d.contracts[i]?

def addMember (d : Draft) (i : Nat) (m : Member) : Draft :=
  { d with contracts := d.contracts.modify i (·.addMember m) }

/-- The class that already has a name, when it is not `c`. -/
def rival? (d : Draft) (name : String) (c : ClassId) : Option ClassId :=
  (d.names.lookup name).filter (· ≠ c)

end Draft

namespace Synthesis

def emitting {α : Type} (m : Emitting α) : Synthesis α := fun d =>
  let (r, e) := m.run d.emission
  (r, { d with emission := e })

def log (r : LogRecord) : Synthesis Unit := emitting (Emitting.log r)

end Synthesis

namespace Synthesizer

open Synthesis

variable (s : Synthesizer)

def cls (c : ClassId) : Synthesis String := emitting (Emitting.cls s.world c)

def type (t : TypeExpr) : Synthesis String := emitting (Emitting.type s.world t)

/-- The name of the contract of a class: below that of the contract around it, or top-level. -/
def contractName (c : ClassId) (around : Option String) : String :=
  let start := match around with
    | some name => if name.isEmpty then s.namePrefix else name
    | none => s.namePrefix
  start ++ s.stem ++ c.simpleName

/-- Gives the name to the class, unless another class has it. -/
def claimName (name : String) (c : ClassId) : Synthesis Unit := do
  match (← get).rival? name c with
  | some other => throw (.nameConflict name other c)
  | none => modify fun d => { d with names := setEntry name c d.names }

def headerLines (c : ClassId) (isAbstract : Bool) : Synthesis (List String) := do
  let identity := "@" ++ (← s.cls MarkerShape.className.kind) ++ "(" ++ Text.quote c.fullName ++ ")"
  if isAbstract then
    return [identity, "@" ++ (← s.cls MarkerShape.modelAbstractClass.kind) ++ "()"]
  else return [identity]

/-- Puts the contract of a class on the list, without members; answers its place and its name. -/
def openContract (c : Component) (around : Option String) : Synthesis (Nat × String) := do
  let name := s.contractName c.type around
  claimName name c.type
  emitting (Emitting.reserve name)
  let _ ← s.cls c.type
  let base := if around.isNone then c.rootBase.getD c.base else c.base
  let header ← s.headerLines c.type c.isAbstract
  let contract : Contract :=
    { backing := c.type, name := name, baseText := ← s.cls base, header := header
      isAbstract := c.isAbstract, nested := around.isSome }
  let place := (← get).contracts.length
  modify fun d =>
    { d with contracts := d.contracts ++ [contract], arena := setEntry c.type place d.arena }
  log (.synthesis .debug ("Contract " ++ name ++ " for " ++ c.type.fullName))
  return (place, name)

def accepted (c : ClassId) (filter : PropertyFilter) : Except EmissionError (List Descriptor) :=
  match s.world.candidates? c with
  | .error e => .error (.unresolvedName e.name)
  | .ok ds => filter.apply s.world ds

def nestedClass? (d : Descriptor) : Option ClassId :=
  if s.world.valueLike d.type then none else d.type.core.class?

/-- The type with which a value is declared: texts and structures as they are, all others with the
option of `None`. -/
def valueText (t : TypeExpr) : Synthesis String := do
  if t.isClass ClassId.str || s.world.isStruct t then s.type t
  else s.type (← emitting (Emitting.nullable t))

def memberType (d : Descriptor) : Synthesis String := do
  if d.has s.world MarkerShape.nullValue.kind then s.type d.type
  else match s.nestedClass? d with
    | some c =>
      match (← get).contract? c with
      | some contract => return contract.name
      | none => s.type d.type
    | none => if s.world.valueLike d.type then s.valueText d.type else s.type d.type

def member (d : Descriptor) : Synthesis Member := do
  let writable := s.world.valueLike d.type
  let typeText ← s.memberType d
  let annotations ← emitting (s.book.translateAll s.world d)
  return { name := d.name, typeText := typeText, writable := writable, nested := !writable
           annotations := annotations }

/-- The component that a property's class is treated as, below the one that has the property. -/
def nestedComponent (c : Component) (nested : ClassId) : Component :=
  { type := nested, base := c.base, filter := c.filter }

section

-- How the contract of a component below another one is derived.
variable (create : Component → Option String → Synthesis Nat)

/-- Derives the contract of the class that a property refers to, unless the class has one. -/
def createNested (c : Component) (name : String) (d : Descriptor) : Synthesis Unit := do
  if let some nested := s.nestedClass? d then
    if !(← get).has nested then
      let _ ← create (nestedComponent c nested) (some name)

def addMember (c : Component) (place : Nat) (name : String) (d : Descriptor) : Synthesis Unit := do
  s.createNested create c name d
  let m ← s.member d
  modify fun draft => draft.addMember place m

def addMembers (c : Component) (place : Nat) (name : String) :
    List Descriptor → List String → Synthesis Unit
  | [], _ => pure ()
  | d :: rest, seen => do
    if seen.contains d.name then addMembers c place name rest seen
    else
      s.addMember create c place name d
      addMembers c place name rest (d.name :: seen)

end

/-- Derives the contract of a class and of all that it reaches. The fuel bounds how deep contracts
are nested; each one met on the way down is of another class. -/
def create : Nat → Component → Option String → Synthesis Nat
  | 0, _, _ => throw .tooDeep
  | fuel + 1, c, around => do
    let (place, name) ← s.openContract c around
    match s.accepted c.type c.filter with
    | .error e => throw e
    | .ok ds =>
      s.addMembers (create fuel) c place name ds []
      return place

/-- Contracts are not nested deeper than there are classes with properties. -/
def depth : Nat := s.world.classes.length + 2

def createContract (c : Component) (around : Option String) : Synthesis Contract := do
  let place ← s.create s.depth c around
  match (← get).contracts[place]? with
  | some contract => return contract
  | none => throw .tooDeep

def addComponent (c : Component) : Synthesis Unit := do
  c.referenceTypes.forM fun t => discard (s.type t)
  if (← get).has c.type then
    log (.synthesis .debug (c.type.simpleName ++ " already synthesized, skipping"))
  else
    let _ ← s.create s.depth c none

def synthesize (components : List Component) : Synthesis Blueprint := do
  components.forM s.addComponent
  let annotated ← emitting (Emitting.recording (Recording.form "Annotated"))
  let d ← get
  return { stem := s.stem, version := s.version, contracts := d.contracts
           importLines := d.emission.ledger.importLines
           references := d.emission.ledger.references, annotatedText := annotated }

def start (s : Synthesizer) : Draft := { emission := Emission.start s.world ClassId.modelNode }

def displayNameLine (name : String) : Synthesis String := do
  return "@" ++ (← s.cls MarkerShape.modelDisplayName.kind) ++ "(" ++ Text.quote name ++ ")"

/-- Declarations of contracts without members. `header` may give a line above each, from its class,
the base and the contract's name. -/
def emptyContracts (classes : List ClassId) (base : ClassId)
    (header : ClassId → ClassId → String → Synthesis (Option String)) : Synthesis String := do
  let blocks ← classes.mapM fun c => do
    let name := s.namePrefix ++ c.simpleName
    let above ← header c base name
    let first := "class " ++ name ++ "(" ++ (← s.cls base) ++ "):"
    return String.intercalate "\n" ((above.filter (· ≠ "")).toList ++ [first, indent ++ "pass"])
  return String.intercalate "\n\n\n" blocks

end Synthesizer

end ModelContracts
