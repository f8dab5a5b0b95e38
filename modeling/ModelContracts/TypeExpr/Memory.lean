import ModelContracts.TypeExpr.Layer

/-!
Types are formed once: a form that is applied to arguments equal to earlier ones gives the type that
was formed first. Unions are compared as sets, so the first order of their members stays.
-/

namespace ModelContracts

inductive FormHead where
  | optional | union | annotated | callable
  | qualified (q : Qualifier)
  | alias (name : String)
  | generic (c : ClassId)
deriving DecidableEq, Repr

structure FormedType where
  head : FormHead
  args : List Value
  result : TypeExpr

abbrev FormMemory := List FormedType

namespace FormMemory

/-- The type that was formed of equal arguments. Arguments that cannot be hashed are never found. -/
def known? (m : FormMemory) (head : FormHead) (args : List Value) : Option TypeExpr :=
  if allHashable args then
    (m.find? fun f => f.head = head && allEqual f.args args).map (·.result)
  else none

def remember (m : FormMemory) (head : FormHead) (args : List Value) (result : TypeExpr) : FormMemory :=
  if (m.known? head args).isSome || !allHashable args then m else m ++ [⟨head, args, result⟩]

/-- The type with the option of `None`, unless it has it, as it was formed first. -/
def nullable? (m : FormMemory) (t : TypeExpr) : Except FormError (TypeExpr × FormMemory) :=
  if t.isOptional then .ok (t, m)
  else match m.known? .optional [.type t] with
    | some u => .ok (u, m)
    | none => t.nullable?.map fun u => (u, m.remember .optional [.type t] u)

theorem known?_empty (head : FormHead) (args : List Value) : known? [] head args = none := by
  simp [known?]

theorem nullable?_nil {t u : TypeExpr} {m : FormMemory} (h : nullable? [] t = .ok (u, m)) :
    t.nullable? = .ok u := by
  unfold nullable? at h
  by_cases ho : t.isOptional = true
  · rw [if_pos ho] at h
    obtain ⟨rfl, _⟩ := Prod.mk.inj (Except.ok.inj h)
    exact TypeExpr.nullable?_of_isOptional ho
  · rw [if_neg ho, known?_empty] at h
    cases hn : t.nullable? with
    | error e => simp [hn, Except.map] at h
    | ok v => simp only [hn, Except.map, Except.ok.injEq, Prod.mk.injEq] at h; rw [h.1]

end FormMemory

end ModelContracts
