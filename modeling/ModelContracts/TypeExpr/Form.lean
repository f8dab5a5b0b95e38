import ModelContracts.TypeExpr.Equality

/-!
Forming type expressions. Unions are flat and hold no member twice; a union of one type is that
type. Literal types and annotations that stand in one another become one. Qualifiers and tuples
are refused as arguments.
-/

namespace ModelContracts

inductive FormError where
  /-- The expression cannot stand as an argument of a form. -/
  | refused (t : TypeExpr)
  | noArguments
  | wrongCount
  | notGeneric (c : ClassId)
  /-- No union can be formed of a member that is no type. -/
  | notCombinable
  /-- The annotated thing has no module. -/
  | noModule

namespace TypeExpr

def asReference : TypeExpr → TypeExpr
  | .forward s => .forwardRef s
  | t => t

def refused : TypeExpr → Bool
  | .qualifier _ | .qualified .. | .annotated (.qualifier _) _ | .value (.tuple _) => true
  | _ => false

def asArgument (t : TypeExpr) : Except FormError TypeExpr :=
  if t.refused then .error (.refused t) else .ok t.asReference

def flattened : List TypeExpr → List TypeExpr
  | [] => []
  | .union _ ts :: rest => ts ++ flattened rest
  | t :: rest => t :: flattened rest

def distinct (same : TypeExpr → TypeExpr → Bool) : List TypeExpr → List TypeExpr
  | [] => []
  | t :: rest => t :: (distinct same rest).filter fun u => !same t u

theorem mem_of_mem_distinct {same : TypeExpr → TypeExpr → Bool} {t : TypeExpr} {ts : List TypeExpr}
    (h : t ∈ distinct same ts) : t ∈ ts := by
  induction ts with
  | nil => cases h
  | cons u rest ih =>
    rcases List.mem_cons.1 h with rfl | h
    · exact List.mem_cons_self
    · exact List.mem_cons_of_mem u (ih (List.mem_filter.1 h).1)

def unionOf (ts : List TypeExpr) : TypeExpr :=
  match distinct same (flattened ts) with
  | [t] => t
  | us => .union false us

def union? (ts : List TypeExpr) : Except FormError TypeExpr :=
  if ts.isEmpty then .error .noArguments
  else (ts.mapM asArgument).map unionOf

def optional? (t : TypeExpr) : Except FormError TypeExpr :=
  (asArgument t).map fun t => unionOf [t, noneType]

def plainOperand : TypeExpr → Bool
  | .cls _ | .union true _ | .generic .builtin .. => true
  | _ => false

def typingOperand : TypeExpr → Bool
  | .forward _ | .value _ | .ellipsis | .params _ => false
  | t => !t.plainOperand

/-- Classes are told apart by identity; only builtin aliases are compared. -/
def sameOperand : TypeExpr → TypeExpr → Bool
  | .cls a, .cls b => a = b
  | .generic .builtin a as, .generic .builtin b bs => a = b && allSame as bs
  | _, _ => false

def bar (a b : TypeExpr) : Except FormError TypeExpr :=
  if a.plainOperand && b.plainOperand then
    .ok (match distinct sameOperand (flattened [a, b]) with
      | [t] => t
      | us => .union true us)
  else if a.typingOperand || b.typingOperand then union? [a, b]
  else .error .notCombinable

def bars? : List TypeExpr → Except FormError TypeExpr
  | [] => .error .noArguments
  | t :: rest => rest.foldlM bar t

/-- Values of literal types that stand among the values take the place of those types. -/
def flattenedValues : List Value → List Value
  | [] => []
  | .type (.literal vs) :: rest => vs ++ flattenedValues rest
  | v :: rest => v :: flattenedValues rest

def distinctValues : List Value → List Value
  | [] => []
  | v :: rest => v :: (distinctValues rest).filter fun u => !v.alike u

/-- A literal type; repeated values are dropped when all can be hashed. -/
def literalOf (values : List Value) : TypeExpr :=
  let vs := flattenedValues values
  .literal (if allHashable vs then distinctValues vs else vs)

/-- Values of the builtin classes have no module, which annotations ask for. -/
def hasModule : TypeExpr → Bool
  | .value v => match v with
    | .decimal _ | .fraction _ | .member .. | .number .. | .marker .. => true
    | _ => false
  | _ => true

def annotated? (t : TypeExpr) (notes : List Value) : Except FormError TypeExpr :=
  if notes.isEmpty then .error .noArguments
  else match t.asReference with
    | .annotated base inner => .ok (.annotated base (inner ++ notes))
    | .value (.tuple vs) => .error (.refused (.value (.tuple vs)))
    | t => if t.hasModule then .ok (.annotated t notes) else .error .noModule

def qualified? (q : Qualifier) (t : TypeExpr) : Except FormError TypeExpr :=
  (asArgument t).map (.qualified q)

/-- The generic aliases of the typing module: name, class they stand for, and the number of their
arguments where it is fixed. -/
def aliases : List (String × ClassId × Option Nat) :=
  [("List", ClassId.list, some 1), ("Dict", ClassId.dict, some 2),
    ("Set", ClassId.builtin "set", some 1), ("FrozenSet", ClassId.builtin "frozenset", some 1),
    ("Tuple", ClassId.tuple, none), ("Type", ClassId.type, some 1),
    ("Iterable", ClassId.iterable, some 1), ("Sequence", ClassId.abstract "Sequence", some 1),
    ("Mapping", ClassId.abstract "Mapping", some 2), ("Callable", ClassId.callable, none)]

def aliasName (origin : ClassId) : String :=
  match aliases.find? (fun a => a.2.1 = origin) with
  | some (name, _) => name
  | none => origin.simpleName

def bareAlias? (name : String) : Option TypeExpr :=
  (aliases.lookup name).map fun (origin, _) => .generic .bare origin []

def isEllipsis : TypeExpr → Bool
  | .ellipsis => true
  | _ => false

def aliasOf? (name : String) (args : List TypeExpr) : Except FormError TypeExpr :=
  match aliases.lookup name with
  | none => .error .noArguments
  | some (origin, count) => do
    let args ← args.mapM asArgument
    match count with
    | some n => if args.length = n then .ok (.generic .typing origin args) else .error .wrongCount
    | none => .ok (.generic .typing origin args)

def callable? (parameters : Option (List TypeExpr)) (result : TypeExpr) : Except FormError TypeExpr := do
  let result ← asArgument result
  let first := match parameters with
    | none => .ellipsis
    | some ts => .params (ts.map asReference)
  return .generic .typing ClassId.callable [first, result]

def subscriptable : List ClassId :=
  [ClassId.list, ClassId.dict, ClassId.builtin "set", ClassId.builtin "frozenset", ClassId.tuple]

end TypeExpr

end ModelContracts
