import ModelContracts.Text.Word
import ModelContracts.World.Import
import ModelContracts.World.Nature

/-!
The names that a generated source imports. A class is bound by its simple name where that is free;
otherwise its module is imported under an alias and the class is named through it. A reserved name
is kept for a contract and never bound afterwards.
-/

namespace ModelContracts

inductive Anchor where
  | cls (c : ClassId)
  | form (name : String)
  | attribute (module name : String)
deriving DecidableEq, Repr

structure Binding where
  name : String
  module : String
  anchor : Anchor
deriving DecidableEq, Repr

structure Ledger where
  /-- The names bound so far, first bound first. -/
  bindings : List Binding := []
  /-- The modules that are imported under an alias. -/
  aliased : List String := []
  reserved : List String := []
  modules : List String := []
  /-- Every class referenced so far, in the order of first touch. -/
  types : List ClassId := []

/-- Adds an element unless it is there. -/
def addOnce {α : Type} [DecidableEq α] (a : α) (l : List α) : List α :=
  if a ∈ l then l else l ++ [a]

theorem mem_addOnce {α : Type} [DecidableEq α] {a b : α} {l : List α} :
    b ∈ addOnce a l ↔ b = a ∨ b ∈ l := by
  unfold addOnce
  split
  · constructor
    · exact Or.inr
    · rintro (rfl | h) <;> assumption
  · simp [or_comm]

def wordOrUnderscore (c : Char) : Char := if Text.wordChars.contains c then c else '_'

def moduleAlias (module : String) : String :=
  "_" ++ String.ofList (module.toList.map wordOrUnderscore)

namespace Ledger

def binding? (l : Ledger) (name : String) : Option Binding := l.bindings.find? (·.name = name)

def isBound (l : Ledger) (name : String) : Bool := (l.binding? name).isSome

def isReserved (l : Ledger) (name : String) : Bool := l.reserved.contains name

def reserve (l : Ledger) (name : String) : Ledger := { l with reserved := addOnce name l.reserved }

def addModule (l : Ledger) (module : String) : Ledger :=
  { l with modules := addOnce module l.modules }

def admits (l : Ledger) (name : String) (a : Anchor) : Bool :=
  match l.binding? name with
  | some b => b.anchor = a
  | none => !l.isReserved name

def bind (l : Ledger) (module name : String) (a : Anchor) : Ledger :=
  if l.isBound name then l
  else addModule { l with bindings := l.bindings ++ [⟨name, module, a⟩] } module

def importAlias (l : Ledger) (module : String) : Ledger :=
  addModule { l with aliased := addOnce module l.aliased } module

def qualified (module qualName : String) : String := moduleAlias module ++ "." ++ qualName

/-- The text for `path`, a dotted name that starts at the attribute `top` of a module. -/
def reference (l : Ledger) (module top path : String) (a : Anchor) : String × Ledger :=
  if l.admits top a then (path, l.bind module top a)
  else (qualified module path, l.importAlias module)

def typingName (l : Ledger) (name : String) : String × Ledger :=
  let a := if name = "Any" then .cls ClassId.any else .form name
  l.reference "typing" name name a

/-- What the first name of a nested class leads to in its module, which may be a module within it: the
class itself when it leads nowhere, and nothing that can be bound when it is `None`. -/
def topAnchor? (w : World) (c : ClassId) (top : String) : Option Anchor :=
  match (w.module? c.moduleName).bind fun m => m.attributes.lookup top with
  | some (.value .none) => none
  | some e => match e.class? with
    | some d => some (.cls d)
    | none => some (.attribute c.moduleName top)
  | none =>
    if w.hasModule (c.moduleName ++ "." ++ top) then some (.attribute c.moduleName top)
    else some (.cls c)

def isImplicit (w : World) (c : ClassId) : Bool :=
  c.moduleName = "builtins" &&
    match (w.module? "builtins").bind fun m => m.attributes.lookup c.qualName with
    | some e => e.class? = some c
    | none => false

/-- The text for a class. A class declared inside a function goes by its simple name, though it
cannot be imported. -/
def classText (w : World) (l : Ledger) (c : ClassId) : String × Ledger :=
  if isImplicit w c then (c.qualName, l)
  else
    let l := { l with types := addOnce c l.types }
    if Text.contains "<locals>" c.qualName then
      l.reference c.moduleName c.simpleName c.simpleName (.cls c)
    else
      let top := Text.firstPiece '.' c.qualName
      if top = c.qualName then l.reference c.moduleName top top (.cls c)
      else match topAnchor? w c top with
        | some a => l.reference c.moduleName top c.qualName a
        | none =>
          if l.isBound top then (qualified c.moduleName c.qualName, l.importAlias c.moduleName)
          else (c.qualName, l)

end Ledger

end ModelContracts
