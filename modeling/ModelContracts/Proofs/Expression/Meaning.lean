import Mathlib.Data.List.Forall2
import ModelContracts.Proofs.Expression.Syntax
import ModelContracts.Proofs.Reference.Naming
import ModelContracts.World.Nature

/-!
The type that an expression stands for, when each name is read as a class, a form of the typing module or
a member of an enumeration. Types are alike when they are the same but for the order and the repetition of
the members of unions, unions in unions, and the way in which a parameterised type came about.
-/

namespace ModelContracts

namespace TypeExpr

mutual

/-- The type without its annotation layers. -/
def unannotated : TypeExpr → TypeExpr
  | .annotated base _ => unannotated base
  | .union bar ts => .union bar (unannotatedAll ts)
  | .generic form origin args => .generic form origin (unannotatedAll args)
  | .qualified q t => .qualified q (unannotated t)
  | .params ts => .params (unannotatedAll ts)
  | t => t
termination_by structural t => t

def unannotatedAll : List TypeExpr → List TypeExpr
  | [] => []
  | t :: ts => unannotated t :: unannotatedAll ts
termination_by structural ts => ts

end

theorem unannotatedAll_eq (ts : List TypeExpr) : unannotatedAll ts = ts.map unannotated := by
  induction ts with
  | nil => rfl
  | cons t ts ih => rw [unannotatedAll, ih, List.map_cons]

/-- The same type, but for how its unions are put together and how its parameterised types came about. -/
inductive Alike : TypeExpr → TypeExpr → Prop
  | refl (t : TypeExpr) : Alike t t
  | symm {t u : TypeExpr} : Alike t u → Alike u t
  | trans {t u v : TypeExpr} : Alike t u → Alike u v → Alike t v
  | same {t u : TypeExpr} : t.same u = true → Alike t u
  | generic {f g : AliasForm} {origin : ClassId} {as bs : List TypeExpr} : as ≠ [] →
      List.Forall₂ Alike as bs → Alike (.generic f origin as) (.generic g origin bs)
  /-- An alias of the typing module by itself stands for its class. -/
  | bare (origin : ClassId) : Alike (.generic .bare origin []) (.cls origin)
  | params {as bs : List TypeExpr} : List.Forall₂ Alike as bs → Alike (.params as) (.params bs)
  | union {f g : Bool} {as bs : List TypeExpr} :
      List.Forall₂ Alike as bs → Alike (.union f as) (.union g bs)
  | members {f : Bool} {as bs : List TypeExpr} :
      (∀ t, t ∈ as ↔ t ∈ bs) → Alike (.union f as) (.union f bs)
  | flat (f : Bool) (ts : List TypeExpr) : Alike (.union f (flattened ts)) (.union f ts)
  | one (f : Bool) (t : TypeExpr) : Alike (.union f [t]) t

/-- Of each member only the first that is the same needs to be kept. -/
theorem exists_distinct (ts : List TypeExpr) : ∃ us, List.Forall₂ Alike ts us ∧
    ∀ u, u ∈ us ↔ u ∈ distinct same ts := by
  induction ts with
  | nil => exact ⟨[], .nil, fun _ => Iff.rfl⟩
  | cons t ts ih =>
    obtain ⟨us, hus, hmem⟩ := ih
    let kept (u : TypeExpr) : TypeExpr := if same t u = true then t else u
    have hkept : ∀ {vs ws : List TypeExpr}, List.Forall₂ Alike vs ws →
        List.Forall₂ Alike vs (ws.map kept) := by
      intro vs ws h
      induction h with
      | nil => exact .nil
      | @cons v w vs ws hvw _ ih =>
        refine .cons ?_ ih
        by_cases hsame : same t w = true
        · have hwhole : kept w = t := if_pos hsame
          rw [hwhole]
          exact hvw.trans (Alike.same hsame).symm
        · have hwhole : kept w = w := if_neg hsame
          rwa [hwhole]
    refine ⟨t :: us.map kept, .cons (.refl t) (hkept hus), fun u => ?_⟩
    rw [distinct, List.mem_cons, List.mem_cons, List.mem_map, List.mem_filter]
    constructor
    · rintro (rfl | ⟨v, hv, rfl⟩)
      · exact Or.inl rfl
      · by_cases hsame : same t v = true
        · exact Or.inl (if_pos hsame)
        · have hwhole : kept v = v := if_neg hsame
          rw [hwhole]
          exact Or.inr ⟨(hmem v).1 hv, by simpa using hsame⟩
    · rintro (rfl | ⟨hu, hdiffer⟩)
      · exact Or.inl rfl
      · have hnot : ¬ same t u = true := by simpa using hdiffer
        exact Or.inr ⟨u, (hmem u).2 hu, if_neg hnot⟩

/-- Forming a union of types gives what the union of them stands for. -/
theorem alike_unionOf {ts us : List TypeExpr} (bar : Bool) (h : List.Forall₂ Alike ts us) :
    Alike (unionOf ts) (.union bar us) := by
  have hdistinct : Alike (unionOf ts) (.union false (distinct same (flattened ts))) := by
    unfold unionOf
    split
    next t ht =>
      rw [ht]
      exact (Alike.one false t).symm
    next => exact .refl _
  obtain ⟨vs, hvs, hmem⟩ := exists_distinct (flattened ts)
  have hkept : Alike (.union false (distinct same (flattened ts))) (.union false (flattened ts)) :=
    (Alike.members fun t => (hmem t).symm).trans (Alike.union hvs).symm
  exact hdistinct.trans (hkept.trans ((Alike.flat false ts).trans (.union h)))

/-- A type that can stand as an argument as it is, and so can the members of a union. -/
inductive Ready : TypeExpr → Prop
  | cls (c : ClassId) : Ready (.cls c)
  | literal (vs : List Value) : Ready (.literal vs)
  | generic (f : AliasForm) (origin : ClassId) (args : List TypeExpr) : Ready (.generic f origin args)
  | ellipsis : Ready .ellipsis
  | params (ts : List TypeExpr) : Ready (.params ts)
  | union (bar : Bool) {ts : List TypeExpr} : (∀ t ∈ ts, Ready t) → Ready (.union bar ts)

namespace Ready

variable {t : TypeExpr} {ts : List TypeExpr}

theorem asReference (h : Ready t) : t.asReference = t := by
  cases h <;> rfl

theorem asArgument (h : Ready t) : t.asArgument = .ok t := by
  cases h <;> rfl

theorem mapM_asArgument (h : ∀ t ∈ ts, Ready t) : ts.mapM TypeExpr.asArgument = .ok ts := by
  induction ts with
  | nil => rfl
  | cons t ts ih =>
    rw [List.mapM_cons, (h t List.mem_cons_self).asArgument, ih fun u hu => h u (List.mem_cons_of_mem t hu)]
    rfl

theorem map_asReference (h : ∀ t ∈ ts, Ready t) : ts.map TypeExpr.asReference = ts := by
  have hall : ∀ t ∈ ts, TypeExpr.asReference t = id t := fun t ht => (h t ht).asReference
  rw [List.map_congr_left hall, List.map_id]

theorem of_mem_flattened (h : ∀ t ∈ ts, Ready t) : ∀ t ∈ flattened ts, Ready t := by
  induction ts with
  | nil => simp [flattened]
  | cons u us ih =>
    have hrest := ih fun t ht => h t (List.mem_cons_of_mem u ht)
    have hfirst := h u List.mem_cons_self
    intro t ht
    cases hfirst with
    | union bar hmembers =>
      rw [flattened, List.mem_append] at ht
      exact ht.elim (hmembers t) (hrest t)
    | _ =>
      rw [flattened, List.mem_cons] at ht
      · rcases ht with rfl | ht
        · constructor
        · exact hrest t ht
      · simp

theorem unionOf (h : ∀ t ∈ ts, Ready t) : Ready (unionOf ts) := by
  have hmembers : ∀ t ∈ distinct same (flattened ts), Ready t := fun t ht =>
    of_mem_flattened h t (mem_of_mem_distinct ht)
  unfold TypeExpr.unionOf
  split
  next t ht => exact hmembers t (by simp [ht])
  next => exact .union false hmembers

end Ready

end TypeExpr

/-! Reading names. -/

/-- What a name in an expression is read as. -/
inductive Head where
  | mention (m : Mention)
  | member (owner : ClassId) (label : String)

def Head.written (name : Mention → String) : Head → String
  | .mention m => name m
  | .member owner label => name (.cls owner) ++ "." ++ label

namespace TypeSyntax

/-- The value that an argument of a literal type stands for. -/
def constant? (w : World) : TypeSyntax Head → Option Value
  | .none => some .none
  | .bool b => some (.bool b)
  | .number n => some (.int n)
  | .text s => some (.text s)
  | .octets data => some (.bytes data)
  | .name (.member owner label) => w.member? owner label
  | _ => Option.none

def constants? (w : World) : List (TypeSyntax Head) → Option (List Value)
  | [] => some []
  | e :: es => (e.constant? w).bind fun v => (constants? w es).map (v :: ·)

/-- A form of the typing module with types as its arguments. -/
def form? (n : String) (ts : List TypeExpr) : Option TypeExpr :=
  if n = "Union" then (TypeExpr.union? ts).toOption
  else if n = "Optional" then
    match ts with
    | [t] => (TypeExpr.optional? t).toOption
    | _ => Option.none
  else Option.none

mutual

/-- The type that an expression stands for. Dots and lists stand for something in brackets only. -/
def type? (w : World) (inside : Bool) : TypeSyntax Head → Option TypeExpr
  | .none => some .noneType
  | .name (.mention (.cls c)) => some (.cls c)
  | .dots => if inside then some .ellipsis else Option.none
  | .list items => if inside then (types? w false items).map .params else Option.none
  | .subscript (.mention (.form n)) args =>
    if n = "Literal" then (constants? w args).map TypeExpr.literalOf
    else (types? w false args).bind (form? n)
  | .subscript (.mention (.cls c)) args =>
    (types? w true args).bind fun ts => (w.subscript? c ts).toOption
  | _ => Option.none
termination_by structural e => e

def types? (w : World) (inside : Bool) : List (TypeSyntax Head) → Option (List TypeExpr)
  | [] => some []
  | e :: es => (type? w inside e).bind fun t => (types? w inside es).map (t :: ·)
termination_by structural es => es

end

end TypeSyntax

end ModelContracts
