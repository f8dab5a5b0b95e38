import ModelContracts.Property.Annotation

/-!
Reflection: the public properties of a class and its ancestors, the most derived first and each
name once. Of one class the annotated attributes come before the property objects. The markers of
a property are those in its annotation layers.
-/

namespace ModelContracts

/-- The type that an attribute is declared with, split into what it is reflected as. -/
structure DeclaredType where
  type : TypeExpr
  notes : List Value
  writable : Bool

/-- The declared type under its layers; `none` for variables of the class. An attribute that is
final is not writable, and one without a type may hold anything. -/
def DeclaredType.ofAnnotation (t : TypeExpr) : Option DeclaredType :=
  match t.base with
  | .qualified .classVar _ => none
  | .qualified .final arg => some ⟨arg.base, t.notes ++ arg.notes, false⟩
  | .qualifier .final => some ⟨.cls ClassId.any, t.notes, false⟩
  | base => some ⟨base, t.notes, true⟩

namespace World

variable (w : World)

def isPublic (name : String) : Bool := !Text.startsWith "_" name

def described (c declaring : ClassId) (name : String) (d : DeclaredType) (writable : Bool) :
    Descriptor :=
  { name := name, type := d.type, declaring := declaring, reflected := c, readable := true
    writable := writable : Descriptor }.withMarkers w (d.notes.filterMap Marker.ofValue?)

def reflectAttributes (c declaring : ClassId) (hints : List (String × TypeExpr)) :
    List String → List Descriptor → List Descriptor
  | [], found => found
  | name :: rest, found =>
    let next :=
      if !isPublic name || found.any (·.name = name) then found
      else match (hints.lookup name).bind DeclaredType.ofAnnotation with
        | none => found
        | some d => found ++ [w.described c declaring name d (d.writable && !w.isFrozen declaring)]
    reflectAttributes c declaring hints rest next

def reflectProperties (c declaring : ClassId) :
    List Property → List Descriptor → Except UnresolvedName (List Descriptor)
  | [], found => .ok found
  | p :: rest, found => do
    let next ←
      if !isPublic p.name || found.any (·.name = p.name) || !p.readable then pure found
      else match p.result with
        | none => pure found
        | some t => do
          let t ← w.resolve? declaring t
          pure (found ++ [w.described c declaring p.name ⟨t.base, t.notes, true⟩ p.writable])
    reflectProperties c declaring rest next

def reflectClass (c declaring : ClassId) (hints : List (String × TypeExpr))
    (found : List Descriptor) : Except UnresolvedName (List Descriptor) :=
  w.reflectProperties c declaring (w.ownProperties declaring)
    (w.reflectAttributes c declaring hints ((w.ownAttributes declaring).map (·.1)) found)

def reflect? (c : ClassId) : Except UnresolvedName (List Descriptor) := do
  let hints ← w.hints? c
  ((w.lineage c).filter (· ≠ ClassId.object)).foldlM
    (fun found declaring => w.reflectClass c declaring hints found) []

def candidates? (c : ClassId) : Except UnresolvedName (List Descriptor) :=
  return (← w.reflect? c).filter (·.isValid w)

end World

end ModelContracts
