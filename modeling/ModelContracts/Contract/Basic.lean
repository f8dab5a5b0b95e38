import ModelContracts.Property.Filter

/-!
Contracts before they are written: every type and annotation is already text, and the only class
that is kept is the one from which a contract is derived.
-/

namespace ModelContracts

structure Member where
  name : String
  typeText : String
  /-- A writable member is annotated only; the others are read through a property. -/
  writable : Bool
  nested : Bool := false
  annotations : List String := []
deriving DecidableEq, Repr

structure Contract where
  backing : ClassId
  name : String
  baseText : String
  header : List String := []
  members : List Member := []
  isAbstract : Bool := false
  nested : Bool := false
deriving DecidableEq, Repr

/-- All that is needed to write one module of contracts. -/
structure Blueprint where
  stem : String
  version : String
  contracts : List Contract := []
  importLines : List String := []
  references : List String := []
  annotatedText : String := "Annotated"
deriving DecidableEq, Repr

/-- A component class and how its contract is derived. -/
structure Component where
  type : ClassId
  base : ClassId := ClassId.modelNodeEnabled
  /-- The base of the component's own contract, where it differs from that of nested ones. -/
  rootBase : Option ClassId := none
  isAbstract : Bool := false
  /-- Types that the module imports in any case. -/
  referenceTypes : List TypeExpr := []
  filter : PropertyFilter := none

namespace Contract

def member? (c : Contract) (name : String) : Option Member := c.members.find? (·.name = name)

def memberNames (c : Contract) : List String := c.members.map (·.name)

def addMember (c : Contract) (m : Member) : Contract := { c with members := c.members ++ [m] }

theorem memberNames_addMember (c : Contract) (m : Member) :
    (c.addMember m).memberNames = c.memberNames ++ [m.name] := by
  simp [memberNames, addMember]

/-- The contract of a class: the latest when there are several. -/
def ofClass? (contracts : List Contract) (c : ClassId) : Option Contract :=
  contracts.reverse.find? (·.backing = c)

theorem ofClass?_append_self (contracts : List Contract) (c : Contract) :
    ofClass? (contracts ++ [c]) c.backing = some c := by simp [ofClass?]

end Contract

namespace Blueprint

def contract? (b : Blueprint) (name : String) : Option Contract :=
  b.contracts.find? (·.name = name)

end Blueprint

end ModelContracts
