import ModelContracts.TypeExpr.Form

/-! Taking annotation layers and the option of `None` off a type, and putting the option on. -/

namespace ModelContracts

namespace TypeExpr

def strip : TypeExpr → TypeExpr × List Value
  | .annotated base notes =>
    let (inner, more) := strip base
    (inner, more ++ notes)
  | t => (t, [])

def base (t : TypeExpr) : TypeExpr := t.strip.1

def notes (t : TypeExpr) : List Value := t.strip.2

def isOptional : TypeExpr → Bool
  | .union _ ts => ts.any isNoneType
  | _ => false

def unwrap : TypeExpr → TypeExpr
  | .union bar ts =>
    if ts.any isNoneType then
      match ts.filter (!·.isNoneType) with
      | [t] => t
      | us => unionOf us
    else .union bar ts
  | t => t

/-- The type with the option of `None`, unless it has it. -/
def nullable? (t : TypeExpr) : Except FormError TypeExpr :=
  if t.isOptional then .ok t else optional? t

/-- The type under the outer annotation layers, without the option of `None`. Layers inside the
option stay. -/
def core (t : TypeExpr) : TypeExpr := t.base.unwrap

theorem strip_annotated (t : TypeExpr) (vs : List Value) :
    (annotated t vs).strip = (t.base, t.notes ++ vs) := rfl

theorem base_annotated (t : TypeExpr) (vs : List Value) : (annotated t vs).base = t.base := rfl

theorem base_cls (c : ClassId) : (cls c).base = .cls c := rfl

theorem core_annotated (t : TypeExpr) (vs : List Value) : (annotated t vs).core = t.core := rfl

theorem nullable?_of_isOptional {t : TypeExpr} (h : t.isOptional = true) : t.nullable? = .ok t := by
  simp [nullable?, h]

end TypeExpr

end ModelContracts
