import ModelContracts.Property.Descriptor
import ModelContracts.World.Import

/-!
The declared types of attributes. Over the whole lineage the most derived annotation of a name
counts. Texts in place of types are names that lead, from the module or the class that declares
the annotation, to a class.
-/

namespace ModelContracts

/-- A name in an annotation that leads to no class. -/
structure UnresolvedName where
  name : String

namespace World

variable (w : World)

/-- The start of a name: in the module, in the class itself, among the builtin names. -/
def nameStart? (c : ClassId) (name : String) : Option Entity :=
  match w.attribute? (.module c.moduleName) name with
  | some e => some e
  | none => match w.ownAttribute? c name with
    | some e => some e
    | none => w.attribute? (.module "builtins") name

def resolveName? (c : ClassId) (text : String) : Except UnresolvedName TypeExpr :=
  if text = "None" then .ok .noneType
  else match Text.split '.' text with
    | [] => .error ⟨text⟩
    | first :: rest =>
      match ((w.nameStart? c first).bind fun e => w.walk? e rest).bind Entity.class? with
      | some d => .ok (.cls d)
      | none => .error ⟨text⟩

mutual

def resolve? (c : ClassId) : TypeExpr → Except UnresolvedName TypeExpr
  | .forward s => w.resolveName? c s
  | .forwardRef s => w.resolveName? c s
  | .annotated base notes => (resolve? c base).map (.annotated · notes)
  | .union bar ts => do
    let us ← resolveAll? c ts
    return if allSame ts us then .union bar ts else TypeExpr.unionOf us
  | .generic form origin args => (resolveAll? c args).map (.generic form origin)
  | .qualified q t => (resolve? c t).map (.qualified q)
  | .params ts => (resolveAll? c ts).map .params
  | t => .ok t
termination_by structural t => t

def resolveAll? (c : ClassId) : List TypeExpr → Except UnresolvedName (List TypeExpr)
  | [] => .ok []
  | t :: ts => do
    let u ← resolve? c t
    return u :: (← resolveAll? c ts)
termination_by structural ts => ts

end

def ownAttributes (c : ClassId) : List (String × TypeExpr) :=
  ((w.find? c).map (·.attributes)).getD []

def ownProperties (c : ClassId) : List Property := ((w.find? c).map (·.properties)).getD []

def resolvedAttributes? (c : ClassId) : Except UnresolvedName (List (String × TypeExpr)) :=
  (w.ownAttributes c).mapM fun (name, t) => return (name, ← w.resolve? c t)

def hints? (c : ClassId) : Except UnresolvedName (List (String × TypeExpr)) :=
  return (← (w.lineage c).mapM w.resolvedAttributes?).flatten

end World

end ModelContracts
