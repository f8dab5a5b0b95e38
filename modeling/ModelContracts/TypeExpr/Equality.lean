import ModelContracts.TypeExpr.Basic

/-!
Equality of values and types. Numbers of all kinds are compared exactly, so `true`, `1`, `1.0` and
the decimal `1` are equal; members of a plain enumeration equal only themselves. Unions and literal
types are compared as sets.
-/

namespace ModelContracts

open Number

/-- The exact size of a real number. -/
inductive Magnitude where
  | ratio (num : Int) (den : Nat)
  | infinite (negative : Bool)
  | nan
  /-- A signalling decimal, which refuses every comparison with a number. -/
  | signaling
deriving Repr

def Magnitude.equal : Magnitude → Magnitude → Bool
  | .ratio a b, .ratio c d => a * d == c * b
  | .infinite a, .infinite b => a == b
  | _, _ => false

def Magnitude.zero : Magnitude := .ratio 0 1

def Number.Binary64.magnitude : Binary64 → Magnitude
  | .nan => .nan
  | .infinite negative => .infinite negative
  | x => match x.ratio? with
    | some (n, d) => .ratio n d
    | none => .nan

def Number.Decimal.magnitude : Decimal → Magnitude
  | .infinite negative => .infinite negative
  | .nan _ signaling _ => if signaling then .signaling else .nan
  | x => match x.ratio? with
    | some (n, d) => .ratio n d
    | none => .nan

namespace Value

def number? : Value → Option (Magnitude × Magnitude)
  | .bool b => some (.ratio (if b then 1 else 0) 1, .zero)
  | .int n => some (.ratio n 1, .zero)
  | .number _ n => some (.ratio n 1, .zero)
  | .float x => some (x.magnitude, .zero)
  | .complex re im => some (re.magnitude, im.magnitude)
  | .decimal d => some (d.magnitude, .zero)
  | .fraction f => some (.ratio f.num f.den, .zero)
  | .member _ .number _ (.int n) => some (.ratio n 1, .zero)
  | _ => Option.none

def text? : Value → Option String
  | .text s => some s
  | .member _ .text _ (.text s) => some s
  | _ => Option.none

def octets? : Value → Option (List UInt8)
  | .bytes data => some data
  | .buffer data => some data
  | _ => Option.none

def truthy : Value → Bool
  | .none => false
  | .bool b => b
  | .text s => s ≠ ""
  | .bytes data | .buffer data => !data.isEmpty
  | .list items | .tuple items => !items.isEmpty
  | .dict entries => !entries.isEmpty
  | .member _ .plain _ _ => true
  | v => match v.text? with
    | some s => s ≠ ""
    | Option.none => match v.number? with
      | some (re, im) => !(re.equal .zero && im.equal .zero)
      | Option.none => true

def className : Value → String
  | .none => "NoneType"
  | .bool _ => "bool"
  | .int _ => "int"
  | .text _ => "str"
  | .float _ => "float"
  | .complex .. => "complex"
  | .decimal _ => "Decimal"
  | .fraction _ => "Fraction"
  | .bytes _ => "bytes"
  | .buffer _ => "bytearray"
  | .member owner .. => owner.simpleName
  | .type t => match t with
    | .cls _ => "type"
    | .union bar _ => if bar then "UnionType" else "_UnionGenericAlias"
    | .literal _ => "_LiteralGenericAlias"
    | .annotated .. => "_AnnotatedAlias"
    | .generic form origin _ => match form with
      | .bare =>
        if origin = ClassId.tuple then "_TupleType"
        else if origin = ClassId.callable then "_CallableType"
        else "_SpecialGenericAlias"
      | .typing => if origin = ClassId.callable then "_CallableGenericAlias" else "_GenericAlias"
      | .builtin => "GenericAlias"
      | .user => "_GenericAlias"
    | .qualifier _ => "_SpecialForm"
    | .qualified .. => "_GenericAlias"
    | .forward _ => "str"
    | .forwardRef _ => "ForwardRef"
    | .typeVar _ => "TypeVar"
    | .ellipsis => "ellipsis"
    | .params _ => "list"
    | .value _ => "object"
  | .list _ => "list"
  | .tuple _ => "tuple"
  | .dict _ => "dict"
  | .date .. => "date"
  | .moment .. => "datetime"
  | .number owner _ => owner.simpleName
  | .marker kind .. => kind.simpleName

def classTag (v : Value) : ClassId :=
  match v with
  | .member owner .. => owner
  | .number owner _ => owner
  | .marker kind .. => kind
  | v => ClassId.builtin v.className

/-- Equality of values that hold no other values: as numbers, as texts, or as octets. -/
def atomsEqual (a b : Value) : Bool :=
  match a.number?, b.number? with
  | some (re, im), some (re', im') => re.equal re' && im.equal im'
  | _, _ => match a.text?, b.text? with
    | some s, some t => s == t
    | _, _ => match a.octets?, b.octets? with
      | some s, some t => s == t
      | _, _ => false

end Value

mutual

def TypeExpr.same : TypeExpr → TypeExpr → Bool
  | .cls a, .cls b => a = b
  | .union _ as, .union _ bs => within as bs && bs.all (oneSame as)
  | .literal as, .literal bs => withinLiteral as bs && bs.all (oneAlike as)
  | .annotated a as, .annotated b bs => TypeExpr.same a b && allEqual as bs
  | .generic f a as, .generic g b bs => f = g && a = b && allSame as bs
  | .qualifier p, .qualifier q => p = q
  | .qualified p a, .qualified q b => p = q && TypeExpr.same a b
  | .forward a, .forward b => a == b
  | .forwardRef a, .forwardRef b => a == b
  | .typeVar a, .typeVar b => a == b
  | .ellipsis, .ellipsis => true
  | .params as, .params bs => allSame as bs
  | .value a, .value b => Value.equal a b
  | _, _ => false
termination_by structural t => t

/-- Whether every member of the first list is the same as one of the second. -/
def within : List TypeExpr → List TypeExpr → Bool
  | [], _ => true
  | a :: as, bs => bs.any (TypeExpr.same a) && within as bs
termination_by structural ts => ts

def oneSame : List TypeExpr → TypeExpr → Bool
  | [], _ => false
  | a :: as, b => TypeExpr.same a b || oneSame as b
termination_by structural ts => ts

def allSame : List TypeExpr → List TypeExpr → Bool
  | [], [] => true
  | a :: as, b :: bs => TypeExpr.same a b && allSame as bs
  | _, _ => false
termination_by structural ts => ts

def Value.equal : Value → Value → Bool
  | .none, .none => true
  | .type a, .type b => TypeExpr.same a b
  | .list as, .list bs => allEqual as bs
  | .tuple as, .tuple bs => allEqual as bs
  | .dict es, .dict fs => es.length == fs.length && entriesWithin es fs
  | .date y m d, .date y' m' d' => y == y' && m == m' && d == d'
  | .moment y m d s u z, .moment y' m' d' s' u' z' =>
    y == y' && m == m' && d == d' && s == s' && u == u' && z == z'
  | .marker k _ as, .marker l _ bs => k = l && allEqual as bs
  | .member c .plain n r, .member d .plain n' r' => c = d && n == n' && Value.equal r r'
  | a, b => Value.atomsEqual a b
termination_by structural v => v

def allEqual : List Value → List Value → Bool
  | [], [] => true
  | a :: as, b :: bs => Value.equal a b && allEqual as bs
  | _, _ => false
termination_by structural vs => vs

def entriesWithin : List (Value × Value) → List (Value × Value) → Bool
  | [], _ => true
  | e :: es, fs => fs.any (entryEqual e) && entriesWithin es fs
termination_by structural es => es

def entryEqual : Value × Value → Value × Value → Bool
  | (k, v), f => Value.equal k f.1 && Value.equal v f.2
termination_by structural e => e

/-- Whether every value of the first list has an equal of the same class in the second. -/
def withinLiteral : List Value → List Value → Bool
  | [], _ => true
  | a :: as, bs =>
    bs.any (fun b => a.classTag = b.classTag && Value.equal a b) && withinLiteral as bs
termination_by structural vs => vs

def oneAlike : List Value → Value → Bool
  | [], _ => false
  | a :: as, b => (a.classTag = b.classTag && Value.equal a b) || oneAlike as b
termination_by structural vs => vs

end

/-- Equal and of the same class: `1` and `true` are equal but not alike. -/
def Value.alike (a b : Value) : Bool := a.classTag = b.classTag && Value.equal a b

mutual

def Value.hashable : Value → Bool
  | .list _ | .dict _ | .buffer _ => false
  | .decimal (.nan _ true _) => false
  | .tuple items => allHashable items
  | .marker _ _ args => allHashable args
  | _ => true
termination_by structural v => v

def allHashable : List Value → Bool
  | [] => true
  | v :: vs => v.hashable && allHashable vs
termination_by structural vs => vs

end

end ModelContracts
