import ModelContracts.Marker.Basic
import ModelContracts.TypeExpr.Memory
import ModelContracts.TypeExpr.Spelled
import ModelContracts.World.Lineage

/-!
The world that contracts are derived from: classes with their lineage and members, and modules
with the attributes that their names lead to.
-/

namespace ModelContracts

/-- A property object of a class. Without a result type it has no place among the reflected ones. -/
structure Property where
  name : String
  result : Option TypeExpr
  readable : Bool
  writable : Bool

structure ClassInfo where
  id : ClassId
  /-- The class itself and its ancestors, most derived first. -/
  lineage : List ClassId
  /-- The annotated attributes that the class itself declares, in order. -/
  attributes : List (String × TypeExpr) := []
  /-- The property objects that the class itself declares, in order. -/
  properties : List Property := []
  /-- The names of an enumeration and their values, in order; a later name for an earlier value is
  an alias of the first. -/
  members : List (String × Value) := []
  /-- Whether the class was made a record, and a frozen one. -/
  record : Option Bool := none
  generic : Bool := false
  iterable : Bool := false
  shape : Option MarkerShape := none

inductive Entity where
  | cls (c : ClassId)
  | value (v : Value)
  | module (name : String)
  /-- Something that is neither `None` nor a class, such as a function. -/
  | other

def Entity.class? : Entity → Option ClassId
  | .cls c => some c
  | .value (.type (.cls c)) => some c
  | _ => none

/-- The attributes of a module, in the order in which they were set. -/
structure Module where
  name : String
  attributes : List (String × Entity)
  /-- Modules of generated contracts are numbered by their loading; the number is zero for others. -/
  number : Nat := 0

structure World where
  classes : List ClassInfo
  modules : List Module
  /-- The modules that can be imported besides. -/
  importable : List String := []
  /-- The packages among the modules: a missing part of them is reported without a reason. -/
  packages : List String := []
  /-- Classes that are attributes of other classes. -/
  nested : List ((ClassId × String) × ClassId) := []
  classMarkers : List (ClassId × List Marker) := []
  /-- The types that the annotations were formed of. -/
  formed : FormMemory := []

def setEntry {α β : Type} [DecidableEq α] (key : α) (value : β) : List (α × β) → List (α × β)
  | [] => [(key, value)]
  | (k, v) :: rest => if k = key then (k, value) :: rest else (k, v) :: setEntry key value rest

theorem lookup_cons_ite {α β : Type} [DecidableEq α] [BEq α] [LawfulBEq α] (a k : α) (b : β)
    (l : List (α × β)) : ((a, b) :: l).lookup k = if k = a then some b else l.lookup k := by
  rw [List.lookup_cons]
  by_cases hk : k = a
  · simp [hk]
  · rw [beq_false_of_ne hk, if_neg hk]

theorem lookup_setEntry {α β : Type} [DecidableEq α] [BEq α] [LawfulBEq α] (key k : α) (value : β)
    (l : List (α × β)) :
    (setEntry key value l).lookup k = if k = key then some value else l.lookup k := by
  induction l with
  | nil => exact lookup_cons_ite key k value []
  | cons e rest ih =>
    obtain ⟨a, b⟩ := e
    simp only [setEntry]
    split
    next h =>
      subst h
      rw [lookup_cons_ite, lookup_cons_ite]
      split <;> rfl
    next h =>
      rw [lookup_cons_ite, lookup_cons_ite, ih]
      by_cases hk : k = a
      · rw [if_pos hk, if_pos hk, if_neg fun hkey => h (hk.symm.trans hkey)]
      · rw [if_neg hk, if_neg hk]

theorem lookup_removed {α β : Type} [DecidableEq α] [BEq α] [LawfulBEq α] (key k : α)
    (l : List (α × β)) :
    (l.filter fun e => e.1 ≠ key).lookup k = if k = key then none else l.lookup k := by
  induction l with
  | nil => simp
  | cons e rest ih =>
    obtain ⟨a, b⟩ := e
    by_cases ha : a = key
    · rw [List.filter_cons_of_neg (by simp [ha]), ih, lookup_cons_ite, ha]
      split <;> rfl
    · rw [List.filter_cons_of_pos (by simp [ha]), lookup_cons_ite, lookup_cons_ite, ih]
      by_cases hk : k = a
      · rw [if_pos hk, if_pos hk, if_neg fun hkey => ha (hk.symm.trans hkey)]
      · rw [if_neg hk, if_neg hk]

namespace World

variable (w : World)

def find? (c : ClassId) : Option ClassInfo := w.classes.find? (·.id = c)

def lineage (c : ClassId) : List ClassId :=
  match w.find? c with
  | some info => info.lineage
  | none => [c, ClassId.object]

def derives (c base : ClassId) : Bool := (w.lineage c).contains base

def derivesAny (c : ClassId) (bases : List ClassId) : Bool := bases.any (w.derives c)

def isEnumeration (c : ClassId) : Bool := w.derives c ClassId.enum

def sort (c : ClassId) : ClassSort :=
  if w.derives c ClassId.flag then .flag
  else if w.isEnumeration c then .enumeration
  else .ordinary

/-- Whether the class, or an ancestor before any other record, was made a frozen record. -/
def isFrozen (c : ClassId) : Bool :=
  ((w.lineage c).findSome? fun d => (w.find? d).bind (·.record)).getD false

def isIterable (c : ClassId) : Bool :=
  (w.lineage c).any fun d => ((w.find? d).map (·.iterable)).getD false

/-- The fields of markers of a kind, inherited from the nearest ancestor that has some. -/
def shape? (c : ClassId) : Option MarkerShape :=
  (w.lineage c).findSome? fun d => (w.find? d).bind (·.shape)

def mixin (c : ClassId) : Mixin :=
  if w.derives c ClassId.int then .number
  else if w.derives c ClassId.str then .text
  else .plain

def classOf : Value → ClassId
  | .none => ClassId.noneType
  | .bool _ => ClassId.bool
  | .int _ => ClassId.int
  | .text _ => ClassId.str
  | .float _ => ClassId.float
  | .complex .. => ClassId.complex
  | .decimal _ => ClassId.decimal
  | .fraction _ => ClassId.fraction
  | .bytes _ => ClassId.bytes
  | .buffer _ => ClassId.bytearray
  | .member owner .. => owner
  | .type t => match t with
    | .cls _ => ClassId.type
    | .forward _ => ClassId.str
    | .params _ => ClassId.list
    | _ => ClassId.object
  | .list _ => ClassId.list
  | .tuple _ => ClassId.tuple
  | .dict _ => ClassId.dict
  | .date .. => ClassId.date
  | .moment .. => ClassId.datetime
  | .number owner _ => owner
  | .marker kind .. => kind

def isInstance (v : Value) (c : ClassId) : Bool := w.derives (classOf v) c

def module? (name : String) : Option Module := w.modules.find? (·.name = name)

def markersOf (c : ClassId) : List Marker := (w.classMarkers.lookup c).getD []

def mark (c : ClassId) (m : Marker) : World :=
  { w with classMarkers := setEntry c (w.markersOf c ++ [m]) w.classMarkers }

def setAttribute (name label : String) (e : Entity) : World :=
  match w.module? name with
  | some m =>
    { w with modules := w.modules.map fun n =>
        if n.name = name then { m with attributes := setEntry label e m.attributes } else n }
  | none => { w with modules := w.modules ++ [{ name := name, attributes := [(label, e)] }] }

/-- Puts a module in the place of one of its name, or beside the others. -/
def putModule (m : Module) : World :=
  if (w.module? m.name).isSome then
    { w with modules := w.modules.map fun n => if n.name = m.name then m else n }
  else { w with modules := w.modules ++ [m] }

def removeModule (name : String) : World :=
  { w with modules := w.modules.filter (·.name ≠ name) }

end World

end ModelContracts
