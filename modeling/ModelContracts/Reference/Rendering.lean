import ModelContracts.Reference.Ledger
import ModelContracts.Text.Order

/-!
Type expressions as text. Each class and each typing form is referenced through the ledger, heads
before arguments; annotation layers are left out. A failing expression keeps what was recorded
before it failed.
-/

namespace ModelContracts

/-- The part of a type expression for which there is no text. -/
structure Unrenderable where
  type : TypeExpr

abbrev Recording := ExceptT Unrenderable (StateM Ledger)

namespace Recording

def of (f : Ledger → String × Ledger) : Recording String := fun l =>
  let (s, l) := f l
  (.ok s, l)

def form (name : String) : Recording String := of fun l => l.typingName name

def cls (w : World) (c : ClassId) : Recording String := of fun l => Ledger.classText w l c

def none : String := "None"

/-- A class as a type: `None` for its own class, and the typing form for `Any`. -/
def className (w : World) (c : ClassId) : Recording String :=
  if c = ClassId.noneType then pure none
  else if c = ClassId.any then form "Any"
  else cls w c

def refuse (t : TypeExpr) : Recording String := throw ⟨t⟩

mutual

def text (w : World) (inside : Bool) : TypeExpr → Recording String
  | .cls c => className w c
  | .forward s => pure s
  | .forwardRef s => pure s
  | .annotated base _ => text w false base
  | .union _ ts =>
    if (ts.filter (!·.isNoneType)).length = 1 && ts.any (·.isNoneType) then do
      let head ← form "Optional"
      return bracketed head (← others w ts)
    else do
      let head ← form "Union"
      return bracketed head (← texts w false ts)
  | .literal vs => do
    let values ← literals w vs
    return bracketed (← form "Literal") values
  | .generic _ origin args => do
    let head ← className w origin
    let inner ← texts w true args
    return if inner.isEmpty then head else bracketed head inner
  | .qualified q t => do
    let head ← form q.name
    return bracketed head [← text w true t]
  | .qualifier q => refuse (.qualifier q)
  | .typeVar s => refuse (.typeVar s)
  | .ellipsis => if inside then pure "..." else refuse .ellipsis
  | .params ts =>
    if inside then do return "[" ++ Text.commaList (← texts w true ts) ++ "]"
    else refuse (.params ts)
  | .value v => if inside then listed w v else refuse (.value v)
termination_by structural t => t

def texts (w : World) (inside : Bool) : List TypeExpr → Recording (List String)
  | [] => pure []
  | t :: ts => do
    let s ← text w inside t
    return s :: (← texts w inside ts)
termination_by structural ts => ts

def others (w : World) : List TypeExpr → Recording (List String)
  | [] => pure []
  | t :: ts =>
    if t.isNoneType then others w ts
    else do
      let s ← text w false t
      return s :: (← others w ts)
termination_by structural ts => ts

/-- A value in the place of an argument: a list is written with its elements. -/
def listed (w : World) : Value → Recording String
  | .list items => do return "[" ++ Text.commaList (← listedAll w items) ++ "]"
  | .tuple items => do return "[" ++ Text.commaList (← listedAll w items) ++ "]"
  | .type t => text w true t
  | .text s => pure s
  | .none => pure none
  | v => refuse (.value v)
termination_by structural v => v

def listedAll (w : World) : List Value → Recording (List String)
  | [] => pure []
  | v :: vs => do
    let s ← listed w v
    return s :: (← listedAll w vs)
termination_by structural vs => vs

/-- The values of a literal type: members through their class, all others spelled. -/
def literals (w : World) : List Value → Recording (List String)
  | [] => pure []
  | v :: vs => do
    let s ← match v with
      | .member owner _ label _ => do
        let head ← className w owner
        pure (head ++ "." ++ label.getD none)
      | v => pure (v.spelled w.sort)
    return s :: (← literals w vs)
termination_by structural vs => vs

end

def type (w : World) (t : TypeExpr) : Recording String := text w false t

end Recording

namespace Ledger

/-- The lines that import every recorded name: first the names of each module, then the modules
under an alias, both in order. -/
def importLines (l : Ledger) : List String :=
  let modules := Text.sorted (l.bindings.foldl (fun ms b => addOnce b.module ms) [])
  let named := modules.map fun m =>
    let names := Text.sorted ((l.bindings.filter (·.module = m)).map (·.name))
    "from " ++ m ++ " import " ++ Text.commaList names
  let whole := (Text.sorted l.aliased).map fun m => "import " ++ m ++ " as " ++ moduleAlias m
  named ++ whole

def references (l : Ledger) : List String := Text.sorted l.modules

/-- The ledger of a source that always refers to `host`. -/
def start (w : World) (host : ClassId) : Ledger :=
  ((Recording.className w host).run {}).2

end Ledger

end ModelContracts
