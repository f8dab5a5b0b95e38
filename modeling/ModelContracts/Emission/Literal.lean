import ModelContracts.Emission.Basic
import ModelContracts.Text.Quoted

/-!
Values as source literals. A declared type lets a raw value stand for the member of an enumeration;
classes and the less common numbers are written through their class.
-/

namespace ModelContracts

open Emitting

def memberText (w : World) (c : ClassId) (label : Option String) : Emitting String := do
  return (← cls w c) ++ "." ++ label.getD "None"

def enumText (w : World) (c : ClassId) (v : Value) : Emitting String :=
  match w.memberOf? c v with
  | .ok (.member _ _ label _) => memberText w c label
  | .ok _ | .error (.unknown _) => throw (.unsupported v)
  | .error e => throw (.lookup e)

def constructed (w : World) (c : ClassId) (s : String) : Emitting String := do
  return (← cls w c) ++ "(" ++ Text.quote s ++ ")"

/-- The literal of a value that is neither `None`, a text, a truth value nor a member. -/
def plainLiteral (w : World) (v : Value) : Emitting String :=
  match v with
  | .type (.cls c) => cls w c
  | .bytes [0] | .buffer [0] => pure (Text.quote "")
  | .int n | .number _ n => pure (toString n)
  | .float x => pure (if x.isFinite then x.text else "float(" ++ Text.quote x.text ++ ")")
  | .complex re im => constructed w ClassId.complex (Number.complexText re im)
  | .decimal d => constructed w ClassId.decimal d.text
  | .fraction f => constructed w ClassId.fraction f.text
  | v => throw (.unsupported v)

/-- The enumeration in which a value is looked up: the declared one, or that of a member. -/
def literalEnum? (w : World) (declared : Option TypeExpr) (v : Value) : Option ClassId :=
  let named := (declared.bind fun t => t.core.class?).filter w.isEnumeration
  match named, v with
  | some c, _ => some c
  | none, .member owner .. => some owner
  | none, _ => none

def literal (w : World) (declared : Option TypeExpr) (v : Value) : Emitting String :=
  match v with
  | .none => pure "None"
  | v => match v.text? with
    | some s => pure (Text.quote s)
    | none => match v with
      | .bool b => pure (if b then "True" else "False")
      | v => match literalEnum? w declared v with
        | some c => enumText w c v
        | none => plainLiteral w v

end ModelContracts
