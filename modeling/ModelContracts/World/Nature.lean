import ModelContracts.TypeExpr.Layer
import ModelContracts.World.Enumeration

/-!
The nature of types: whether their values are copied like numbers or referred to as nodes of their
own, and whether they hold elements.
-/

namespace ModelContracts

namespace World

variable (w : World)

def primitiveClasses : List ClassId :=
  [ClassId.bool, ClassId.int, ClassId.float, ClassId.complex]

def structClasses : List ClassId :=
  [ClassId.datetime, ClassId.date, ClassId.time, ClassId.timedelta, ClassId.decimal, ClassId.uuid]

def isEnumType (t : TypeExpr) : Bool := (t.class?.map w.isEnumeration).getD false

def structClass (c : ClassId) : Bool :=
  !w.isEnumeration c && !w.derivesAny c primitiveClasses &&
    (w.derivesAny c structClasses || w.isFrozen c)

def isStruct (t : TypeExpr) : Bool := (t.core.class?.map w.structClass).getD false

def valueClass (c : ClassId) : Bool :=
  c = ClassId.str || w.derivesAny c primitiveClasses || w.isEnumeration c || w.structClass c

/-- Whether the one type beside `None` in an option is value-like. Of an annotated one only the
structure counts. -/
def valueOption : TypeExpr → Bool
  | .literal _ => true
  | .cls c => w.valueClass c
  | t => w.isStruct t

mutual

/-- Whether values of the type are copied. A union is value-like when all its members are. -/
def valueLike : TypeExpr → Bool
  | .annotated base _ => valueLike base
  | .literal _ => true
  | .cls c => w.valueClass c
  | .union _ ts =>
    if ts.any (·.isNoneType) && (ts.filter (!·.isNoneType)).length = 1 then
      (ts.filter (!·.isNoneType)).all (valueOption w)
    else allValueLike ts
  | _ => false
termination_by structural t => t

def allValueLike : List TypeExpr → Bool
  | [] => true
  | t :: ts => (t.isNoneType || valueLike t) && allValueLike ts
termination_by structural ts => ts

end

/-- Whether the type holds elements to iterate over; texts do not count. -/
def isEnumerable (t : TypeExpr) : Bool :=
  let holds (c : ClassId) := !w.isEnumeration c && !w.derives c ClassId.str && w.isIterable c
  match t.core with
  | .cls c => holds c
  | .generic _ origin _ => holds origin
  | _ => false

def validMember? (t : TypeExpr) (v : Value) : Except LookupError Bool :=
  match t.core.class? with
  | none => .ok true
  | some c =>
    if !w.isEnumeration c then .ok true
    else match w.memberOf? c v with
      | .ok _ => .ok true
      | .error (.unknown _) => .ok false
      | .error e => .error e

/-- The class `c` with arguments in brackets: builtin collections and the classes derived from them
take any, a generic class takes one. -/
def subscript? (c : ClassId) (args : List TypeExpr) : Except FormError TypeExpr :=
  let builtin := c = ClassId.type || c.moduleName = "collections.abc" ||
    w.derivesAny c TypeExpr.subscriptable
  if ((w.find? c).map (·.generic)).getD false then
    if args.length = 1 then .ok (.generic .user c (args.map TypeExpr.asReference))
    else .error .wrongCount
  else if builtin then .ok (.generic .builtin c args)
  else .error (.notGeneric c)

end World

end ModelContracts
