import ModelContracts.Proofs.Expression.Writing

/-!
Type expressions that are written and read again. A type that is made of classes, unions, literal types and
parameterised types can be written. With each name read as what it was written for, its text stands for the
type without the annotation layers.
-/

namespace ModelContracts

open Ledger

/-! Types that can be written. -/

def World.AllDotted (w : World) (l : Ledger) : Prop := ∀ c ∈ l.types, w.Dotted c

theorem World.dotted_of_simple {w : World} {c : ClassId} (hmodule : Text.isDotted c.moduleName = true)
    (hpath : Text.isDotted c.qualName = true) (hglobal : Text.contains "<locals>" c.qualName = false)
    (hsimple : Text.firstPiece '.' c.qualName = c.qualName) : w.Dotted c where
  module := hmodule
  path := hpath
  global := hglobal
  placed := Or.inr (Or.inl hsimple)

namespace Ledger

theorem mem_types_classText {w : World} {l : Ledger} {c d : ClassId} (h : d ∈ (classText w l c).2.types) :
    d = c ∨ d ∈ l.types := by
  by_cases himplicit : isImplicit w c = true
  · unfold classText at h
    rw [if_pos himplicit] at h
    exact Or.inr h
  · rw [types_classText l (Bool.not_eq_true _ ▸ himplicit)] at h
    exact mem_addOnce.1 h

end Ledger

namespace Recording

section

variable {ε σ α β : Type}

/-- Every run from a state with the invariant succeeds and leads to one. -/
def Succeeds (I : σ → Prop) (m : ExceptT ε (StateM σ) α) : Prop :=
  ∀ s, I s → ∃ a t, m.run s = (.ok a, t) ∧ I t

variable {I : σ → Prop}

theorem Succeeds.pure (a : α) : Succeeds I (pure a : ExceptT ε (StateM σ) α) := fun s h => ⟨a, s, rfl, h⟩

theorem Succeeds.bind {m : ExceptT ε (StateM σ) α} {f : α → ExceptT ε (StateM σ) β} (hm : Succeeds I m)
    (hf : ∀ a, Succeeds I (f a)) : Succeeds I (m >>= f) := by
  intro s hs
  obtain ⟨a, t, hrun, ht⟩ := hm s hs
  obtain ⟨b, u, hrest, hu⟩ := hf a t ht
  exact ⟨b, u, by rw [run_bind_of_ok hrun, hrest], hu⟩

end

variable {w : World}

theorem succeeds_of {f : Ledger → String × Ledger} (h : ∀ l, w.AllDotted l → w.AllDotted (f l).2) :
    Succeeds w.AllDotted (of f) := fun l hl => ⟨(f l).1, (f l).2, rfl, h l hl⟩

theorem succeeds_form (name : String) : Succeeds w.AllDotted (form name) :=
  succeeds_of fun l hl => by
    unfold World.AllDotted typingName
    rwa [types_reference]

theorem succeeds_className {c : ClassId} (h : w.Dotted c) : Succeeds w.AllDotted (className w c) := by
  unfold className
  split_ifs
  · exact .pure _
  · exact succeeds_form "Any"
  · refine succeeds_of fun l hl d hd => ?_
    rcases mem_types_classText hd with rfl | hd
    · exact h
    · exact hl d hd

theorem succeeds_literals {vs : List Value} (h : ∀ v ∈ vs, w.Constant v) :
    Succeeds w.AllDotted (literals w vs) := by
  induction vs with
  | nil => exact .pure _
  | cons v vs ih =>
    rw [literals_cons]
    refine .bind ?_ fun s => (ih fun u hu => h u (List.mem_cons_of_mem v hu)).bind fun ss => .pure _
    have hv := h v List.mem_cons_self
    unfold literalText
    split
    next owner _ label _ =>
      have hdotted : w.Dotted owner := by
        cases label with
        | none => exact hv.elim
        | some label => exact hv.1
      exact (succeeds_className hdotted).bind fun _ => .pure _
    next => exact .pure _

mutual

theorem succeeds_text {inside outer : Bool} (hinside : inside = true → outer = true) : (t : TypeExpr) →
    w.Expressible inside t → Succeeds w.AllDotted (text w outer t)
  | .cls _, h => succeeds_className h
  | .annotated base _, h => succeeds_text (nofun : false = true → _) base h
  | .union _ ts, h => by
    unfold text
    split_ifs
    · exact (succeeds_form "Optional").bind fun _ => (succeeds_others ts h.2).bind fun _ => .pure _
    · exact (succeeds_form "Union").bind fun _ =>
        (succeeds_texts (nofun : false = true → _) ts h.2).bind fun _ => .pure _
  | .literal vs, h => (succeeds_literals h.2.2).bind fun _ => (succeeds_form "Literal").bind fun _ => .pure _
  | .generic _ _ args, h => (succeeds_className h.1).bind fun _ =>
      (succeeds_texts id args h.2.2).bind fun _ => .pure _
  | .ellipsis, h => by
    unfold text
    rw [if_pos (hinside h)]
    exact .pure _
  | .params ts, h => by
    unfold text
    rw [if_pos (hinside h.1)]
    exact (succeeds_texts (nofun : false = true → _) ts h.2).bind fun _ => .pure _
termination_by structural t => t

theorem succeeds_texts {inside outer : Bool} (hinside : inside = true → outer = true) :
    (ts : List TypeExpr) → w.AllExpressible inside ts → Succeeds w.AllDotted (texts w outer ts)
  | [], _ => .pure _
  | t :: ts, h => (succeeds_text hinside t h.1).bind fun _ =>
      (succeeds_texts hinside ts h.2).bind fun _ => .pure _
termination_by structural ts => ts

theorem succeeds_others : (ts : List TypeExpr) → w.AllExpressible false ts →
    Succeeds w.AllDotted (others w ts)
  | [], _ => .pure _
  | t :: ts, h => by
    unfold others
    split_ifs
    · exact succeeds_others ts h.2
    · exact (succeeds_text (nofun : false = true → _) t h.1).bind fun _ =>
        (succeeds_others ts h.2).bind fun _ => .pure _
termination_by structural ts => ts

end

end Recording

/-! What the expression stands for. -/

namespace World

variable {w : World}

theorem constant?_expression {v : Value} (h : w.Constant v) : v.expression.constant? w = some v := by
  unfold Constant at h
  split at h
  · rfl
  · rfl
  · rfl
  · rfl
  · rfl
  · exact h.2.2.2
  · exact h.elim

theorem constants?_expression {vs : List Value} (h : ∀ v ∈ vs, w.Constant v) :
    TypeSyntax.constants? w (vs.map Value.expression) = some vs := by
  induction vs with
  | nil => rfl
  | cons v vs ih =>
    have hfirst := constant?_expression (h v List.mem_cons_self)
    have hrest := ih fun u hu => h u (List.mem_cons_of_mem v hu)
    rw [List.map_cons, TypeSyntax.constants?, hfirst, Option.bind_some, hrest, Option.map_some]

/-- A literal type that lists no value twice is what is formed of its values. -/
theorem literalOf_constants {vs : List Value} (hdistinct : TypeExpr.distinctValues vs = vs)
    (h : ∀ v ∈ vs, w.Constant v) : TypeExpr.literalOf vs = .literal vs := by
  have hflat : TypeExpr.flattenedValues vs = vs := by
    clear hdistinct
    induction vs with
    | nil => rfl
    | cons v vs ih =>
      have hrest := ih fun u hu => h u (List.mem_cons_of_mem v hu)
      have hv := h v List.mem_cons_self
      unfold TypeExpr.flattenedValues
      split
      next heq =>
        cases heq
      next heq =>
        cases heq
        exact hv.elim
      next heq =>
        cases heq
        rw [hrest]
  rw [TypeExpr.literalOf, hflat, hdistinct]
  split_ifs <;> rfl

/-- Whether a class takes arguments depends on their number only. -/
theorem subscript?_of_length {c : ClassId} {ts us : List TypeExpr} {t : TypeExpr}
    (h : w.subscript? c ts = .ok t) (hlength : us.length = ts.length) (hus : ∀ u ∈ us, u.Ready) :
    ∃ form, w.subscript? c us = .ok (.generic form c us) := by
  unfold subscript? at h ⊢
  dsimp only at h ⊢
  by_cases hgeneric : ((w.find? c).map (·.generic)).getD false = true
  · rw [if_pos hgeneric] at h ⊢
    by_cases hone : ts.length = 1
    · rw [if_pos (hlength.trans hone), TypeExpr.Ready.map_asReference hus]
      exact ⟨.user, rfl⟩
    · rw [if_neg hone] at h
      cases h
  · rw [if_neg hgeneric] at h ⊢
    split_ifs at h ⊢
    exact ⟨.builtin, rfl⟩

/-- What stands for a type outside of brackets stands for it everywhere. -/
theorem type?_outside {e : TypeSyntax Head} {t : TypeExpr} (h : e.type? w false = some t)
    (inside : Bool) : e.type? w inside = some t := by
  cases inside with
  | false => exact h
  | true =>
    cases e with
    | name a => rcases a with (_ | _ | _) | _ <;> exact h
    | subscript a es => rcases a with (_ | _ | _) | _ <;> exact h
    | dots => cases h
    | list => cases h
    | _ => exact h

/-- With each name read as what it was written for, the expression of a type stands for the type. -/
def Meant (w : World) (inside : Bool) (t : TypeExpr) : Prop :=
  ∃ u, t.expression.type? w inside = some u ∧ u.Ready ∧ u.Alike t.unannotated

theorem types?_of_meant {inside : Bool} {ts : List TypeExpr} (h : ∀ t ∈ ts, w.Meant inside t) :
    ∃ us, TypeSyntax.types? w inside (ts.map TypeExpr.expression) = some us ∧ (∀ u ∈ us, u.Ready) ∧
      List.Forall₂ TypeExpr.Alike us (ts.map TypeExpr.unannotated) := by
  induction ts with
  | nil => exact ⟨[], rfl, nofun, .nil⟩
  | cons t ts ih =>
    obtain ⟨u, hu, hready, halike⟩ := h t List.mem_cons_self
    obtain ⟨us, hus, hall, hrest⟩ := ih fun v hv => h v (List.mem_cons_of_mem t hv)
    refine ⟨u :: us, ?_, List.forall_mem_cons.2 ⟨hready, hall⟩, .cons halike hrest⟩
    rw [List.map_cons, TypeSyntax.types?, hu, Option.bind_some, hus, Option.map_some]

theorem meant_class {inside : Bool} (c : ClassId) :
    c.expression.type? w inside = some (.cls c) := by
  unfold ClassId.expression
  split_ifs with hnone
  · rw [hnone]
    rfl
  · rfl

theorem meant_union {ts : List TypeExpr} (bar : Bool) (hts : ts ≠ []) (h : ∀ t ∈ ts, w.Meant false t) :
    ∃ u, (TypeSyntax.subscript (TypeExpr.formHead "Union") (ts.map TypeExpr.expression)).type? w false =
      some u ∧ u.Ready ∧ u.Alike (.union bar (ts.map TypeExpr.unannotated)) := by
  obtain ⟨us, hus, hready, halike⟩ := types?_of_meant h
  have hne : us.isEmpty = false := by
    have hlength := halike.length_eq
    cases us with
    | nil => simp_all
    | cons u us => rfl
  have hform : TypeSyntax.form? "Union" us = some (TypeExpr.unionOf us) := by
    unfold TypeSyntax.form?
    rw [if_pos rfl, TypeExpr.union?, hne, if_neg Bool.false_ne_true,
      TypeExpr.Ready.mapM_asArgument hready]
    rfl
  refine ⟨TypeExpr.unionOf us, ?_, TypeExpr.Ready.unionOf hready, TypeExpr.alike_unionOf bar halike⟩
  rw [TypeExpr.formHead, TypeSyntax.type?, if_neg (by decide), hus, Option.bind_some, hform]

/-- Of a union in which one member is not `None`, `Optional` is written with that member. -/
theorem meant_optional {ts : List TypeExpr} {t : TypeExpr} (bar : Bool)
    (hothers : ts.filter (!·.isNoneType) = [t]) (hnone : ts.any (·.isNoneType) = true)
    (h : w.Meant false t) :
    ∃ u, (TypeSyntax.subscript (TypeExpr.formHead "Optional") [t.expression]).type? w false = some u ∧
      u.Ready ∧ u.Alike (.union bar (ts.map TypeExpr.unannotated)) := by
  obtain ⟨u, hu, hready, halike⟩ := h
  have hform : TypeSyntax.form? "Optional" [u] = some (TypeExpr.unionOf [u, .noneType]) := by
    unfold TypeSyntax.form?
    rw [if_neg (by decide), if_pos rfl]
    dsimp only
    unfold TypeExpr.optional?
    rw [hready.asArgument]
    rfl
  have hpair : ∀ v ∈ [u, .noneType], v.Ready := by
    rw [List.forall_mem_cons, List.forall_mem_singleton]
    exact ⟨hready, .cls _⟩
  have hself : TypeExpr.noneType.unannotated = .noneType := rfl
  have hmembers : ∀ v, v ∈ [t.unannotated, .noneType] ↔ v ∈ ts.map TypeExpr.unannotated := by
    have hkind : ∀ v ∈ ts, v = t ∨ v = .noneType := by
      intro v hv
      by_cases hnone : v.isNoneType = true
      · right
        unfold TypeExpr.isNoneType TypeExpr.isClass at hnone
        split at hnone
        · rw [of_decide_eq_true hnone]
          rfl
        · cases hnone
      · left
        have hmem : v ∈ ts.filter (!·.isNoneType) := List.mem_filter.2 ⟨hv, by simpa using hnone⟩
        rw [hothers] at hmem
        exact List.mem_singleton.1 hmem
    have ht : t ∈ ts := List.mem_of_mem_filter (by rw [hothers]; exact List.mem_cons_self)
    obtain ⟨n, hn, hnone⟩ := List.any_eq_true.1 hnone
    have hnoneMem : .noneType ∈ ts := by
      unfold TypeExpr.isNoneType TypeExpr.isClass at hnone
      split at hnone
      · rw [of_decide_eq_true hnone] at hn
        exact hn
      · cases hnone
    intro v
    rw [List.mem_cons, List.mem_singleton, List.mem_map]
    constructor
    · rintro (rfl | rfl)
      · exact ⟨t, ht, rfl⟩
      · exact ⟨_, hnoneMem, hself⟩
    · rintro ⟨x, hx, rfl⟩
      rcases hkind x hx with rfl | rfl
      · exact Or.inl rfl
      · exact Or.inr hself
  have hunion : (TypeExpr.unionOf [u, .noneType]).Alike (.union bar [t.unannotated, .noneType]) :=
    TypeExpr.alike_unionOf bar (.cons halike (.cons (.refl _) .nil))
  refine ⟨_, ?_, TypeExpr.Ready.unionOf hpair, hunion.trans (.members hmembers)⟩
  rw [TypeExpr.formHead, TypeSyntax.type?, if_neg (by decide), TypeSyntax.types?, hu, Option.bind_some,
    TypeSyntax.types?, Option.map_some, Option.bind_some, hform]

theorem meant_arguments {inside : Bool} {form : AliasForm} {origin : ClassId} {args : List TypeExpr}
    {t : TypeExpr} (hargs : args ≠ []) (hsubscript : w.subscript? origin args = .ok t)
    (h : ∀ t ∈ args, w.Meant true t) :
    ∃ u, (TypeSyntax.subscript (.mention (.cls origin)) (args.map TypeExpr.expression)).type? w inside =
      some u ∧ u.Ready ∧ u.Alike (.generic form origin (args.map TypeExpr.unannotated)) := by
  obtain ⟨us, hus, hready, halike⟩ := types?_of_meant h
  have hlength : us.length = args.length := by
    rw [halike.length_eq, List.length_map]
  obtain ⟨other, hother⟩ := subscript?_of_length hsubscript hlength hready
  have hne : us ≠ [] := by
    rintro rfl
    exact hargs (List.length_eq_zero_iff.1 hlength.symm)
  refine ⟨_, ?_, .generic other origin us, .generic hne halike⟩
  rw [TypeSyntax.type?, hus, Option.bind_some, hother]
  rfl

mutual

theorem meant_type {inside : Bool} : (t : TypeExpr) → w.Expressible inside t → w.Meant inside t
  | .cls c, _ => ⟨_, meant_class c, .cls c, .refl _⟩
  | .annotated base _, h => by
    obtain ⟨u, hu, hready, halike⟩ := meant_type base h
    exact ⟨u, type?_outside hu inside, hready, halike⟩
  | .union bar ts, h => by
    have hall := meant_types ts h.2
    have hunion : ∃ u, (TypeExpr.union bar ts).expression.type? w false = some u ∧ u.Ready ∧
        u.Alike (.union bar (ts.map TypeExpr.unannotated)) := by
      unfold TypeExpr.expression
      split_ifs with hoptional
      · simp only [Bool.and_eq_true, decide_eq_true_eq] at hoptional
        obtain ⟨hone, hnone⟩ := hoptional
        obtain ⟨t, ht⟩ := List.length_eq_one_iff.1 hone
        have hmem : t ∈ ts := List.mem_of_mem_filter (by rw [ht]; exact List.mem_cons_self)
        rw [TypeExpr.otherExpressions_eq, ht]
        exact meant_optional bar ht hnone (hall t hmem)
      · rw [TypeExpr.expressions_eq]
        exact meant_union bar h.1 hall
    obtain ⟨u, hu, hready, halike⟩ := hunion
    rw [← TypeExpr.unannotatedAll_eq] at halike
    exact ⟨u, type?_outside hu inside, hready, halike⟩
  | .literal vs, h => by
    obtain ⟨-, hdistinct, hconstants⟩ := h
    refine ⟨.literal vs, ?_, .literal vs, .refl _⟩
    rw [TypeExpr.expression, TypeExpr.formHead, TypeSyntax.type?, if_pos rfl,
      constants?_expression hconstants, Option.map_some, literalOf_constants hdistinct hconstants]
  | .generic form origin args, h => by
    obtain ⟨-, hform, hargs⟩ := h
    have hall := meant_types args hargs
    rcases hform with ⟨rfl, rfl⟩ | ⟨hargs, -, t, hsubscript⟩
    · exact ⟨.cls origin, meant_class origin, .cls origin, (TypeExpr.Alike.bare origin).symm⟩
    · have hempty : args.isEmpty = false := by simpa using hargs
      unfold Meant
      rw [TypeExpr.expression, hempty, if_neg Bool.false_ne_true, TypeExpr.expressions_eq,
        TypeExpr.unannotated, TypeExpr.unannotatedAll_eq]
      exact meant_arguments hargs hsubscript hall
  | .ellipsis, h => by
    obtain rfl : inside = true := h
    exact ⟨.ellipsis, rfl, .ellipsis, .refl _⟩
  | .params ts, h => by
    obtain ⟨rfl, hts⟩ := h
    obtain ⟨us, hus, -, halike⟩ := types?_of_meant (meant_types ts hts)
    refine ⟨.params us, ?_, .params us, ?_⟩
    · rw [TypeExpr.expression, TypeExpr.expressions_eq, TypeSyntax.type?, if_pos rfl, hus, Option.map_some]
    · rw [TypeExpr.unannotated, TypeExpr.unannotatedAll_eq]
      exact .params halike
termination_by structural t => t

theorem meant_types {inside : Bool} : (ts : List TypeExpr) → w.AllExpressible inside ts →
    ∀ t ∈ ts, w.Meant inside t
  | [], _ => nofun
  | t :: ts, h => by
    have hfirst := meant_type t h.1
    have hrest := meant_types ts h.2
    exact List.forall_mem_cons.2 ⟨hfirst, hrest⟩
termination_by structural ts => ts

end

end World

namespace Palette

def color : ClassId := ⟨"app", "Color", 0⟩

/-- A world with one enumeration. -/
def world : World where
  classes := [{ id := color, lineage := [color, ClassId.enum, ClassId.object], members := [("RED", .int 1)] }]
  modules := [{ name := "app", attributes := [("Color", .cls color)] }]

def red : Value := .member color .plain (some "RED") (.int 1)

/-- Dictionaries from texts to one of two constants, with a bound on them, or nothing. -/
def shades : TypeExpr :=
  .union false [.annotated (.generic .builtin ClassId.dict [.cls ClassId.str, .literal [.text "a, b]", red]])
    [.int 1], .cls ClassId.noneType]

theorem expressible_shades : world.Expressible false shades := by
  have hdict : world.Dotted ClassId.dict := by
    apply World.dotted_of_simple <;> decide +kernel
  have hstr : world.Dotted ClassId.str := by
    apply World.dotted_of_simple <;> decide +kernel
  have hcolor : world.Dotted color := by
    apply World.dotted_of_simple <;> decide +kernel
  have hnone : world.Dotted ClassId.noneType := by
    apply World.dotted_of_simple <;> decide +kernel
  have hred : world.Constant red := ⟨hcolor, by decide +kernel, by decide +kernel, by rfl⟩
  have hconstants : ∀ v ∈ [Value.text "a, b]", red], world.Constant v := by
    rintro v (_ | ⟨_, _ | ⟨_, ⟨⟩⟩⟩)
    · trivial
    · exact hred
  have hliteral : world.Expressible true (.literal [.text "a, b]", red]) :=
    ⟨List.cons_ne_nil _ _, by rfl, hconstants⟩
  have htable : world.Expressible false
      (.generic .builtin ClassId.dict [.cls ClassId.str, .literal [.text "a, b]", red]]) :=
    ⟨hdict, Or.inr ⟨List.cons_ne_nil _ _, by decide, _, by rfl⟩, hstr, hliteral, trivial⟩
  exact ⟨List.cons_ne_nil _ _, htable, hnone, trivial⟩

end Palette

end ModelContracts
