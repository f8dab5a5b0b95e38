import ModelContracts.TypeExpr.Form
import ModelContracts.Text.Spelled

/-!
The spelled form of values and types, as messages show them. A class by itself is spelled with its
sort; inside brackets it goes by its dotted name.
-/

namespace ModelContracts

/-- What the spelled form of a class calls it. -/
inductive ClassSort where
  | ordinary | enumeration | flag
deriving DecidableEq, Repr

def Qualifier.name : Qualifier → String
  | .final => "Final"
  | .classVar => "ClassVar"

def bracketed (head : String) (parts : List String) : String :=
  head ++ "[" ++ Text.commaList parts ++ "]"

def ClassId.spelled (sort : ClassSort) (c : ClassId) : String :=
  if c = ClassId.any then "typing.Any"
  else match sort with
    | .ordinary => "<class '" ++ c.dottedName ++ "'>"
    | .enumeration => "<enum " ++ Text.spell c.simpleName ++ ">"
    | .flag => "<flag " ++ Text.spell c.simpleName ++ ">"

/-- The text of a union: with a bar, as `Optional` when the other of two members is `None`, or
with `Union`. The members' names come with a mark for `None`. -/
def unionSpelled (bar : Bool) (members : List (Bool × String)) : String :=
  if bar then String.intercalate " | " (members.map fun (isNone, s) => if isNone then "None" else s)
  else match members with
    | [(true, _), (_, s)] => bracketed "typing.Optional" [s]
    | [(_, s), (true, _)] => bracketed "typing.Optional" [s]
    | _ => bracketed "typing.Union" (members.map (·.2))

def aliasHead (form : AliasForm) (origin : ClassId) : String :=
  match form with
  | .bare | .typing => "typing." ++ TypeExpr.aliasName origin
  | .builtin | .user => origin.dottedName

def spelledZone (ahead : Int) : String :=
  if ahead = 0 then "datetime.timezone.utc"
  else
    let day := if ahead < 0 then "days=-1, " else ""
    "datetime.timezone(datetime.timedelta(" ++ day ++ "seconds=" ++ toString (ahead * 60 % 86400) ++ "))"

/-- The parts of a point in time down to its minutes, and what comes after; a trailing part that is
zero is left out. -/
def spelledMoment (whole : List Nat) (second micro : Nat) (ahead : Option Int) : String :=
  let parts := if micro ≠ 0 then whole ++ [second, micro] else if second ≠ 0 then whole ++ [second] else whole
  let zone := ahead.toList.map fun z => "tzinfo=" ++ spelledZone z
  "datetime.datetime(" ++ Text.commaList (parts.map (fun n => toString n) ++ zone) ++ ")"

variable (sort : ClassId → ClassSort)

mutual

def TypeExpr.named : TypeExpr → String
  | .cls c => c.dottedName
  | .union bar ts => unionSpelled bar (namedMembers ts)
  | .literal vs => bracketed "typing.Literal" (namedValues vs)
  | .annotated t notes => bracketed "typing.Annotated" (TypeExpr.named t :: spelledAll notes)
  | .generic form origin args =>
    let head := aliasHead form origin
    match form, args with
    | .bare, _ => head
    | _, [] => head ++ "[()]"
    | _, args => bracketed head (namedAll args)
  | .qualifier q => "typing." ++ q.name
  | .qualified q t => bracketed ("typing." ++ q.name) [TypeExpr.named t]
  | .forward s => Text.spell s
  | .forwardRef s => "ForwardRef(" ++ Text.spell s ++ ")"
  | .typeVar s => "~" ++ s
  | .ellipsis => "..."
  | .params ts => "[" ++ Text.commaList (namedAll ts) ++ "]"
  | .value v => Value.spelled v
termination_by structural t => t

def namedAll : List TypeExpr → List String
  | [] => []
  | t :: ts => TypeExpr.named t :: namedAll ts
termination_by structural ts => ts

def namedMembers : List TypeExpr → List (Bool × String)
  | [] => []
  | t :: ts => (t.isNoneType, TypeExpr.named t) :: namedMembers ts
termination_by structural ts => ts

def Value.spelled : Value → String
  | .none => "None"
  | .bool b => if b then "True" else "False"
  | .int n => toString n
  | .text s => Text.spell s
  | .float x => x.text
  | .complex re im => Number.complexText re im
  | .decimal d => "Decimal('" ++ d.text ++ "')"
  | .fraction f => "Fraction(" ++ toString f.num ++ ", " ++ toString f.den ++ ")"
  | .bytes data => Text.spellBytes data
  | .buffer data => Text.spellBuffer data
  | .member owner _ label raw =>
    let head := match label with
      | some name => owner.simpleName ++ "." ++ name
      | none => owner.simpleName
    "<" ++ head ++ ": " ++ Value.spelled raw ++ ">"
  | .type t => match t with
    | .cls c => c.spelled (sort c)
    | .ellipsis => "Ellipsis"
    | t => TypeExpr.named t
  | .list items => "[" ++ Text.commaList (spelledAll items) ++ "]"
  | .tuple items => match items with
    | [v] => "(" ++ Value.spelled v ++ ",)"
    | items => "(" ++ Text.commaList (spelledAll items) ++ ")"
  | .dict entries => "\x7b" ++ Text.commaList (spelledEntries entries) ++ "\x7d"
  | .moment y m d s u z => spelledMoment [y, m, d, s / 3600, s / 60 % 60] (s % 60) u z
  | .date y m d => "datetime.date(" ++ Text.commaList [toString y, toString m, toString d] ++ ")"
  | .number _ n => toString n
  | .marker kind shape args =>
    kind.qualName ++ "(" ++ Text.commaList (spelledFields (shape.fields.map (·.1)) args) ++ ")"
termination_by structural v => v

def namedValues : List Value → List String
  | [] => []
  | v :: vs => (match v with
      | .type t => TypeExpr.named t
      | v => Value.spelled v) :: namedValues vs
termination_by structural vs => vs

def spelledAll : List Value → List String
  | [] => []
  | v :: vs => Value.spelled v :: spelledAll vs
termination_by structural vs => vs

def spelledEntries : List (Value × Value) → List String
  | [] => []
  | e :: es => spelledEntry e :: spelledEntries es
termination_by structural es => es

def spelledEntry : Value × Value → String
  | (k, v) => Value.spelled k ++ ": " ++ Value.spelled v
termination_by structural e => e

def spelledFields : List String → List Value → List String
  | name :: names, v :: vs => (name ++ "=" ++ Value.spelled v) :: spelledFields names vs
  | _, _ => []
termination_by structural _ vs => vs

end

def TypeExpr.spelled (t : TypeExpr) : String := Value.spelled sort (.type t)

end ModelContracts
