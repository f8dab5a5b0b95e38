import ModelContracts.World.Standard

/-!
Declaring classes. A declaration adds a class to the world when its bases have a common lineage
and agree on being frozen; its members are described once every class is declared, since they may
refer to any.
-/

namespace ModelContracts

inductive ClassKind where
  | plain | record | frozenRecord | marker | enumeration | numberEnumeration | textEnumeration
  | flags
deriving DecidableEq, Repr

structure Declaration where
  id : ClassId
  kind : ClassKind
  bases : List ClassId
  generic : Bool
  iterable : Bool
  /-- Whether the class cannot be reached as an attribute. -/
  hidden : Bool
  members : List (String × Value)

inductive DeclarationError where
  /-- A class that cannot be derived from. -/
  | finalBase (c : ClassId)
  /-- The bases have no common lineage. -/
  | noLineage (c : ClassId)
  /-- A frozen record and one that is not frozen cannot derive from each other. -/
  | frozenMismatch (c : ClassId)
  /-- An enumeration with members cannot be derived from. -/
  | closedEnumeration (c : ClassId)
  /-- Two members of an enumeration share a name. -/
  | repeatedMember (name : String)

namespace ClassKind

def addedBases : ClassKind → List ClassId
  | .enumeration => [ClassId.enum]
  | .numberEnumeration => [ClassId.intEnum]
  | .textEnumeration => [ClassId.str, ClassId.enum]
  | .flags => [ClassId.intFlag]
  | _ => []

def frozen? : ClassKind → Option Bool
  | .record => some false
  | .frozenRecord | .marker => some true
  | _ => none

end ClassKind

namespace World

def finalClasses : List ClassId :=
  [ClassId.bool, ClassId.noneType, ClassId.builtin "function"]

def declaredLineage (w : World) (d : Declaration) : Except DeclarationError (List ClassId) := do
  let named := d.bases ++ d.kind.addedBases ++ (if d.generic then [ClassId.generic] else [])
  let bases := if named.isEmpty then [ClassId.object] else named
  if let some c := bases.find? finalClasses.contains then throw (.finalBase c)
  if let some c := bases.find? fun c =>
      w.isEnumeration c && ((w.find? c).map (!·.members.isEmpty)).getD false then
    throw (.closedEnumeration c)
  match Lineage.ofBases d.id bases (bases.map w.lineage) with
  | some l => return l
  | none => throw (.noLineage d.id)

/-- Whether making the class a record is at odds with a record that it derives from. -/
def frozenClash (w : World) (kind : ClassKind) (ancestors : List ClassId) : Bool :=
  match kind.frozen? with
  | none => false
  | some frozen => ancestors.any fun c =>
      match (w.find? c).bind (·.record) with
      | some other => other != frozen
      | none => false

def repeatedName : List (String × Value) → Option String
  | [] => none
  | (name, _) :: rest => if (rest.map (·.1)).contains name then some name else repeatedName rest

def declare? (w : World) (d : Declaration) : Except DeclarationError World := do
  let lineage ← declaredLineage w d
  if frozenClash w d.kind lineage.tail then throw (.frozenMismatch d.id)
  if let some name := repeatedName d.members then throw (.repeatedMember name)
  let info : ClassInfo :=
    { id := d.id, lineage := lineage, members := d.members, record := d.kind.frozen?
      generic := d.generic, iterable := d.iterable }
  return { w with classes := w.classes ++ [info] }

def describe (w : World) (c : ClassId) (attributes : List (String × TypeExpr))
    (properties : List Property) : World :=
  { w with classes := w.classes.map fun info =>
      if info.id = c then { info with attributes := attributes, properties := properties }
      else info }

def dottedHeads : List String → List String
  | [] => []
  | s :: rest => s :: (dottedHeads rest).map fun t => s ++ "." ++ t

def addModule (w : World) (name : String) : World :=
  (dottedHeads (Text.split '.' name)).foldl (fun w n =>
    if (w.module? n).isSome || w.importable.contains n then w
    else { w with modules := w.modules ++ [{ name := n, attributes := [] }] }) w

def owner? (c : ClassId) : Option (ClassId × String) :=
  match (Text.split '.' c.qualName).reverse with
  | [] | [_] => none
  | last :: outer =>
    some (⟨c.moduleName, String.intercalate "." outer.reverse, c.generation⟩, last)

/-- Makes a declared class an attribute of its module or of the class around it. -/
def expose (w : World) (c : ClassId) : World :=
  if Text.contains "<locals>" c.qualName then w
  else match owner? c with
    | none => w.setAttribute c.moduleName c.qualName (.cls c)
    | some place => { w with nested := setEntry place c w.nested }

end World

end ModelContracts
