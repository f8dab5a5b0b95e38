import ModelContracts.Proofs.Running
import ModelContracts.World.Nature
import ModelContracts.World.Standard

/-!
How the nature of a type fares under layers of annotations and of the option of `None`. Annotations
never change it. An option keeps it as well, unless it is put directly over an annotated type: the
type in the option is then asked for its structure alone, and no class is seen under its notes.
-/

namespace ModelContracts

namespace TypeExpr

def isUnion : TypeExpr → Bool
  | .union .. => true
  | _ => false

def isAnnotated : TypeExpr → Bool
  | .annotated .. => true
  | _ => false

/-- `Under t u vs`: the type `t` is `u` under annotation layers, which hold the notes `vs`. -/
inductive Under : TypeExpr → TypeExpr → List Value → Prop
  | bare {t : TypeExpr} (h : t.isAnnotated = false) : Under t t []
  | layer {t u : TypeExpr} {vs ns : List Value} (h : Under t u vs) :
      Under (.annotated t ns) u (vs ++ ns)

theorem under_strip (t : TypeExpr) : Under t t.base t.notes := by
  suffices ∀ u vs, t.strip = (u, vs) → Under t u vs from this _ _ rfl
  fun_induction strip t with
  | case1 b notes inner more hstrip ih =>
    rintro u vs ⟨⟩
    exact .layer (ih _ _ hstrip)
  | case2 t ht =>
    rintro u vs ⟨⟩
    refine .bare ?_
    cases t with
    | annotated b ns => exact absurd rfl (ht b ns)
    | _ => rfl

theorem Under.strip_eq {t u : TypeExpr} {vs : List Value} (h : Under t u vs) :
    t.base = u ∧ t.notes = vs := by
  induction h with
  | @bare t ht =>
    cases t with
    | annotated b ns => cases ht
    | _ => exact ⟨rfl, rfl⟩
  | @layer t u vs ns _ ih =>
    rw [base_annotated, notes, strip_annotated, ih.2]
    exact ⟨ih.1, rfl⟩

theorem Under.not_annotated {t u : TypeExpr} {vs : List Value} (h : Under t u vs) :
    u.isAnnotated = false := by
  induction h with
  | bare h => exact h
  | layer _ ih => exact ih

/-- The members of a union as the union forms leave them. -/
structure Assorted (ts : List TypeExpr) : Prop where
  several : 2 ≤ ts.length
  flat : ∀ t ∈ ts, t.isUnion = false
  apart : ts.Pairwise fun t u => same t u = false

/-- Under the annotation layers stands no union with members that the forms would have merged. -/
def Formed (t : TypeExpr) : Prop := ∀ bar ts, t.base = .union bar ts → Assorted ts

theorem formed_of_not_union {t : TypeExpr} (h : t.base.isUnion = false) : t.Formed := by
  intro bar ts ht
  simp [ht, isUnion] at h

theorem formed_union {bar : Bool} {ts : List TypeExpr} (h : Assorted ts) : (union bar ts).Formed := by
  intro bar' ts' ht
  cases ht
  exact h

theorem same_noneType (t : TypeExpr) : same t noneType = t.isNoneType := by
  cases t <;> rfl

theorem isNoneType_noneType : noneType.isNoneType = true := rfl

theorem eq_noneType {t : TypeExpr} (h : t.isNoneType = true) : t = noneType := by
  cases t with
  | cls c => simpa [isNoneType, isClass, noneType] using h
  | _ => cases h

/-! The members of unions. -/

theorem flattened_of_flat {ts : List TypeExpr} (h : ∀ t ∈ ts, t.isUnion = false) :
    flattened ts = ts := by
  induction ts with
  | nil => rfl
  | cons t rest ih =>
    have hrest := ih fun u hu => h u (List.mem_cons_of_mem t hu)
    have ht := h t List.mem_cons_self
    cases t with
    | union => cases ht
    | _ => simp [flattened, hrest]

theorem pairwise_distinct (ts : List TypeExpr) :
    (distinct same ts).Pairwise fun t u => same t u = false := by
  induction ts with
  | nil => exact List.Pairwise.nil
  | cons t rest ih =>
    refine List.Pairwise.cons ?_ (ih.filter _)
    intro u hu
    simpa using (List.mem_filter.1 hu).2

theorem distinct_of_apart {ts : List TypeExpr} (h : ts.Pairwise fun t u => same t u = false) :
    distinct same ts = ts := by
  induction h with
  | nil => rfl
  | cons ht _ ih =>
    rw [distinct, ih, List.filter_eq_self.2]
    intro u hu
    simp [ht u hu]

theorem distinct_append_noneType {ts : List TypeExpr}
    (h : ts.Pairwise fun t u => same t u = false) :
    distinct same (ts ++ [noneType]) = if ts.any isNoneType then ts else ts ++ [noneType] := by
  induction h with
  | nil => rfl
  | @cons t rest ht _ ih =>
    have hrest : rest.filter (fun u => !same t u) = rest := by
      rw [List.filter_eq_self]
      intro u hu
      simp [ht u hu]
    rw [List.cons_append, distinct, ih, List.any_cons]
    by_cases hany : rest.any isNoneType = true
    · simp [hany, hrest]
    · cases hn : t.isNoneType <;> simp [hany, hn, hrest, same_noneType]

theorem Assorted.filter_some {ts : List TypeExpr} (h : Assorted ts) :
    ts.filter (!·.isNoneType) ≠ [] := by
  intro hnone
  rw [List.filter_eq_nil_iff] at hnone
  have hall : ∀ t ∈ ts, t = noneType := fun t ht => eq_noneType (by simpa using hnone t ht)
  match ts, h with
  | [], h => exact absurd h.several (by simp)
  | [_], h => exact absurd h.several (by simp)
  | t :: u :: _, h =>
    have hsame := List.rel_of_pairwise_cons h.apart List.mem_cons_self
    rw [hall t (by simp), hall u (by simp)] at hsame
    cases hsame

theorem two_le_length {ts : List TypeExpr} (hnone : ts ≠ []) (hone : ∀ t, ts ≠ [t]) :
    2 ≤ ts.length := by
  match ts with
  | [] => exact absurd rfl hnone
  | [t] => exact absurd rfl (hone t)
  | _ :: _ :: _ => simp

/-- What is formed of flat members is a single one of them or an assorted union. -/
theorem formed_unionOf {ts : List TypeExpr} (hne : flattened ts ≠ [])
    (h : ∀ t ∈ flattened ts, t.isUnion = false ∧ t.Formed) : (unionOf ts).Formed := by
  have hmem : ∀ t ∈ distinct same (flattened ts), t.isUnion = false ∧ t.Formed :=
    fun t ht => h t (mem_of_mem_distinct ht)
  have hsome : distinct same (flattened ts) ≠ [] := by
    cases hf : flattened ts with
    | nil => exact absurd hf hne
    | cons t rest => simp [distinct]
  have hapart := pairwise_distinct (flattened ts)
  unfold unionOf
  split
  · next t ht => exact (hmem t (by simp [ht])).2
  · next us hone =>
    exact formed_union ⟨two_le_length hsome hone, fun t ht => (hmem t ht).1, hapart⟩

/-! The types that an option gives. -/

/-- An option is put on a formed type that is no class `None`: a union takes it as a member, behind
the others, and any other type becomes one of two members. -/
inductive OptionOf : TypeExpr → TypeExpr → Prop
  | none : OptionOf noneType noneType
  | union {bar : Bool} {ts us : List TypeExpr} (hts : Assorted ts)
      (hus : us = if ts.any isNoneType then ts else ts ++ [noneType]) :
      OptionOf (.union bar ts) (.union false us)
  | other {t : TypeExpr} (hu : t.isUnion = false) (hn : t.isNoneType = false) :
      OptionOf t (.union false [t.asReference, noneType])

theorem asReference_isUnion (t : TypeExpr) : t.asReference.isUnion = t.isUnion := by
  cases t <;> rfl

theorem asReference_isNoneType (t : TypeExpr) : t.asReference.isNoneType = t.isNoneType := by
  cases t <;> rfl

theorem unionOf_two_le {ts us : List TypeExpr} (h : distinct same (flattened ts) = us)
    (hlen : 2 ≤ us.length) : unionOf ts = .union false us := by
  unfold unionOf
  rw [h]
  split
  · simp at hlen
  · rfl

theorem Assorted.unionOf_self {ts : List TypeExpr} (h : Assorted ts) : unionOf ts = .union false ts :=
  unionOf_two_le (by rw [flattened_of_flat h.flat, distinct_of_apart h.apart]) h.several

theorem optionOf_of_optional? {t u : TypeExpr} (ht : t.Formed) (h : t.optional? = .ok u) :
    OptionOf t u := by
  have hu : u = unionOf [t.asReference, noneType] := by
    unfold optional? asArgument at h
    split at h
    · cases h
    · exact (Except.ok.inj h).symm
  subst hu
  by_cases hunion : t.isUnion = true
  · cases t with
    | union bar ts =>
      have hts := ht bar ts rfl
      have hd : distinct same (flattened [asReference (.union bar ts), noneType]) =
          if ts.any isNoneType then ts else ts ++ [noneType] := by
        rw [← distinct_append_noneType hts.apart]
        simp [asReference, noneType, flattened]
      have hlen : 2 ≤ (if ts.any isNoneType then ts else ts ++ [noneType]).length := by
        have := hts.several
        split <;> simp
        all_goals omega
      rw [unionOf_two_le hd hlen]
      exact .union hts rfl
    | _ => cases hunion
  · rw [Bool.not_eq_true] at hunion
    have hflat : ∀ v ∈ [t.asReference, noneType], v.isUnion = false := by
      rintro v (_ | ⟨_, _ | ⟨_, ⟨⟩⟩⟩)
      · rw [asReference_isUnion, hunion]
      · rfl
    cases hn : t.isNoneType with
    | true =>
      rw [eq_noneType hn]
      exact .none
    | false =>
      have hd : distinct same (flattened [t.asReference, noneType]) = [t.asReference, noneType] := by
        rw [flattened_of_flat hflat]
        simp [distinct, same_noneType, asReference_isNoneType, hn]
      rw [unionOf_two_le hd (by simp)]
      exact .other hunion hn

theorem OptionOf.formed {t u : TypeExpr} (h : OptionOf t u) : u.Formed := by
  cases h with
  | none => exact formed_of_not_union rfl
  | @union bar ts us hts hus =>
    subst hus
    refine formed_union ?_
    split
    · exact hts
    · next hnone =>
      have hnone : ∀ t ∈ ts, t.isNoneType = false := by simpa using hnone
      refine ⟨by have := hts.several; simp; omega, ?_, ?_⟩
      · intro t ht
        rcases List.mem_append.1 ht with ht | ht
        · exact hts.flat t ht
        · rw [List.mem_singleton.1 ht]
          rfl
      · refine List.pairwise_append.2 ⟨hts.apart, List.pairwise_singleton _ _, ?_⟩
        intro t ht v hv
        rw [List.mem_singleton.1 hv, same_noneType]
        exact hnone t ht
  | @other t hu hn =>
    refine formed_union ⟨by simp, ?_, ?_⟩
    · rintro v (_ | ⟨_, _ | ⟨_, ⟨⟩⟩⟩)
      · rw [asReference_isUnion, hu]
      · rfl
    · simp [same_noneType, asReference_isNoneType, hn]

theorem OptionOf.not_annotated {t u : TypeExpr} (h : OptionOf t u) : u.isAnnotated = false := by
  cases h <;> rfl

/-! Annotation layers. -/

theorem annotated?_ok {t u : TypeExpr} {vs : List Value} (h : t.annotated? vs = .ok u) :
    ∃ us, u = .annotated t.asReference us ∨ ∃ b ns, t = .annotated b ns ∧ u = .annotated b us := by
  unfold annotated? at h
  split at h
  · cases h
  · split at h
    · next b ns ht =>
      cases t with
      | annotated b' ns' =>
        cases ht
        exact ⟨_, .inr ⟨b, ns, rfl, (Except.ok.inj h).symm⟩⟩
      | _ => cases ht
    · cases h
    · split at h
      · exact ⟨vs, .inl (Except.ok.inj h).symm⟩
      · cases h

theorem asReference_formed {t : TypeExpr} (h : t.Formed) : t.asReference.Formed := by
  cases t with
  | forward s => exact formed_of_not_union rfl
  | _ => exact h

theorem annotated?_formed {t u : TypeExpr} {vs : List Value} (ht : t.Formed)
    (h : t.annotated? vs = .ok u) : u.Formed := by
  obtain ⟨us, rfl | ⟨b, ns, rfl, rfl⟩⟩ := annotated?_ok h
  · exact asReference_formed ht
  · exact ht

theorem annotated?_isAnnotated {t u : TypeExpr} {vs : List Value} (h : t.annotated? vs = .ok u) :
    u.isAnnotated = true := by
  obtain ⟨us, rfl | ⟨b, ns, rfl, rfl⟩⟩ := annotated?_ok h <;> rfl

/-- A layer that is put on a type. -/
inductive Layer where
  | notes (values : List Value)
  | option

def Layer.put? : Layer → TypeExpr → Except FormError TypeExpr
  | .notes vs, t => t.annotated? vs
  | .option, t => t.optional?

/-- The type under the layers, the first of them innermost. -/
def layered? (t : TypeExpr) : List Layer → Except FormError TypeExpr
  | [] => .ok t
  | l :: ls => l.put? t >>= fun u => u.layered? ls

/-- Whether an option is put directly over annotations. -/
def coversNotes : Bool → List Layer → Bool
  | _, [] => false
  | _, .notes _ :: ls => coversNotes true ls
  | noted, .option :: ls => noted || coversNotes false ls

end TypeExpr

namespace World

open TypeExpr

variable (w : World)

/-- The three answers about a type. -/
structure Nature where
  valueLike : Bool
  struct : Bool
  enumerable : Bool
deriving DecidableEq

def nature (t : TypeExpr) : Nature := ⟨w.valueLike t, w.isStruct t, w.isEnumerable t⟩

theorem nature_annotated (t : TypeExpr) (vs : List Value) : w.nature (.annotated t vs) = w.nature t := by
  simp [nature, valueLike, isStruct, isEnumerable, core_annotated]

theorem nature_asReference (t : TypeExpr) : w.nature t.asReference = w.nature t := by
  cases t with
  | forward s => rfl
  | _ => rfl

theorem nature_annotated? {t u : TypeExpr} {vs : List Value} (h : t.annotated? vs = .ok u) :
    w.nature u = w.nature t := by
  obtain ⟨us, rfl | ⟨b, ns, rfl, rfl⟩⟩ := annotated?_ok h
  · rw [nature_annotated, nature_asReference]
  · rw [nature_annotated, nature_annotated]

/-! An option over a type without notes keeps its nature. -/

theorem core_union_none {bar : Bool} {ts : List TypeExpr} (h : ts.any isNoneType = true) :
    (union bar ts).core = (union false ts).core := by
  simp [core, base, strip, unwrap, h]

theorem nature_union_bar (bar : Bool) (ts : List TypeExpr) :
    w.nature (.union bar ts) = w.nature (.union false ts) := by
  cases h : ts.any isNoneType with
  | true => simp [nature, valueLike, isStruct, isEnumerable, core_union_none h]
  | false => simp [nature, valueLike, isStruct, isEnumerable, core, base, strip, unwrap, h, class?]

theorem allValueLike_append_noneType (ts : List TypeExpr) :
    w.allValueLike (ts ++ [noneType]) = w.allValueLike ts := by
  induction ts with
  | nil => simp [allValueLike, isNoneType, isClass, noneType]
  | cons t rest ih => simp [allValueLike, ih]

theorem nature_append_noneType {ts : List TypeExpr} (h : Assorted ts)
    (hnone : ts.any isNoneType = false) :
    w.nature (.union false (ts ++ [noneType])) = w.nature (.union false ts) := by
  have hrest : (ts ++ [noneType]).filter (!·.isNoneType) = ts := by
    have hfilter : ts.filter (!·.isNoneType) = ts := by
      rw [List.filter_eq_self]
      simpa using hnone
    simp [List.filter_append, hfilter, isNoneType_noneType]
  have hany : (ts ++ [noneType]).any isNoneType = true := by simp [isNoneType_noneType]
  have hone : ts.length ≠ 1 := by have := h.several; omega
  have hcore : (TypeExpr.union false (ts ++ [noneType])).core = .union false ts := by
    simp only [core, base, strip, unwrap, hany, hrest, if_true]
    split
    · simp at hone
    · exact h.unionOf_self
  have hcore' : (TypeExpr.union false ts).core = .union false ts := by
    simp [core, base, strip, unwrap, hnone]
  simp only [nature, valueLike, isStruct, isEnumerable, hcore, hcore', hrest, hany, hnone, hone,
    allValueLike_append_noneType, decide_false, Bool.and_false, Bool.false_and, Bool.false_eq_true,
    if_false]

/-- The two members of an option of a type that is no union. -/
theorem nature_option {t : TypeExpr} (hu : t.isUnion = false) (hn : t.isNoneType = false) :
    w.nature (.union false [t.asReference, noneType]) =
      if t.isAnnotated then ⟨w.isStruct t, false, false⟩ else w.nature t := by
  have hn' : t.asReference.isNoneType = false := by rw [asReference_isNoneType, hn]
  have hcore : (TypeExpr.union false [t.asReference, noneType]).core = t.asReference := by
    simp [core, base, strip, unwrap, hn', isNoneType_noneType]
  have hv : w.valueLike (.union false [t.asReference, noneType]) = w.valueOption t.asReference := by
    simp [valueLike, hn', isNoneType_noneType]
  simp only [nature, isStruct, isEnumerable, hcore, hv]
  cases t with
  | union => cases hu
  | cls c => simp [asReference, isAnnotated, valueOption, valueLike, core, base, strip, unwrap]
  | annotated b ns => simp [asReference, isAnnotated, valueOption, isStruct, class?]
  | _ =>
    simp [asReference, isAnnotated, valueOption, isStruct, valueLike, core, base, strip, unwrap,
      class?]

theorem nature_optional? {t u : TypeExpr} (ht : t.Formed) (h : t.optional? = .ok u) :
    w.nature u = if t.isAnnotated then ⟨w.isStruct t, false, false⟩ else w.nature t := by
  cases optionOf_of_optional? ht h with
  | none => rfl
  | @union bar ts us hts hus =>
    rw [if_neg (by simp [isAnnotated]), w.nature_union_bar bar, hus]
    split
    · rfl
    · next hnone => exact w.nature_append_noneType hts (by simpa using hnone)
  | other hu hn => exact w.nature_option hu hn

/-! A structure is copied. -/

theorem valueLike_under {t u : TypeExpr} {vs : List Value} (h : Under t u vs) :
    w.valueLike u = w.valueLike t := by
  induction h with
  | bare => rfl
  | layer _ ih => exact ih

theorem valueClass_of_structClass {c : ClassId} (h : w.structClass c = true) :
    w.valueClass c = true := by
  simp [valueClass, h]

/-- A union of which one member is no `None` has that member for its core; of another union the
core is a union. -/
theorem core_class_of_union {bar : Bool} {ts : List TypeExpr} {c : ClassId} (h : Assorted ts)
    (hc : (union bar ts).core.class? = some c) :
    ts.any isNoneType = true ∧ ts.filter (!·.isNoneType) = [.cls c] := by
  simp only [core, base, strip, unwrap] at hc
  split at hc
  · next hnone =>
    refine ⟨hnone, ?_⟩
    split at hc
    · next t ht =>
      cases t with
      | cls d => rw [ht, Option.some.inj hc]
      | _ => cases hc
    · next us hone =>
      have hfilter : Assorted (ts.filter (!·.isNoneType)) := by
        exact ⟨two_le_length h.filter_some hone, fun t ht => h.flat t (List.mem_filter.1 ht).1,
          h.apart.filter _⟩
      rw [hfilter.unionOf_self] at hc
      cases hc
  · cases hc

theorem valueLike_of_isStruct {t : TypeExpr} (ht : t.Formed) (h : w.isStruct t = true) :
    w.valueLike t = true := by
  obtain ⟨c, hc, hs⟩ : ∃ c, t.core.class? = some c ∧ w.structClass c = true := by
    unfold isStruct at h
    cases hc : t.core.class? with
    | none => simp [hc] at h
    | some c => exact ⟨c, rfl, by simpa [hc] using h⟩
  rw [← w.valueLike_under (under_strip t)]
  cases hb : t.base with
  | cls d =>
    rw [core, hb] at hc
    cases hc
    exact w.valueClass_of_structClass hs
  | union bar ts =>
    have hcore : (union bar ts).core = t.core := by rw [core, core, hb]; rfl
    obtain ⟨hnone, hone⟩ := core_class_of_union (ht bar ts hb) (by rw [hcore]; exact hc)
    simp [valueLike, hnone, hone, valueOption, w.valueClass_of_structClass hs]
  | annotated b ns =>
    have hbare := (under_strip t).not_annotated
    rw [hb] at hbare
    cases hbare
  | _ =>
    rw [core, hb] at hc
    cases hc

/-! Layers in any order. -/

theorem Layer.put?_formed {t u : TypeExpr} {l : Layer} (ht : t.Formed) (h : l.put? t = .ok u) :
    u.Formed := by
  cases l with
  | notes vs => exact annotated?_formed ht h
  | option => exact (optionOf_of_optional? ht h).formed

/-- Without an option over notes the nature stays. -/
theorem nature_layered? {ls : List Layer} {t u : TypeExpr} (ht : t.Formed)
    (h : t.layered? ls = .ok u) (hc : coversNotes t.isAnnotated ls = false) :
    w.nature u = w.nature t := by
  induction ls generalizing t with
  | nil =>
    cases h
    rfl
  | cons l ls ih =>
    obtain ⟨v, hv, hrest⟩ := except_bind_ok h
    cases l with
    | notes vs =>
      rw [ih (annotated?_formed ht hv) hrest (by rw [annotated?_isAnnotated hv]; exact hc),
        w.nature_annotated? hv]
    | option =>
      have ho := optionOf_of_optional? ht hv
      obtain ⟨hnotes, hc⟩ := Bool.or_eq_false_iff.1 hc
      rw [ih ho.formed hrest (by rw [ho.not_annotated]; exact hc), w.nature_optional? ht hv, hnotes]
      simp

/-- An option over notes leaves a type that is copied only if it was a structure, and that is itself
neither a structure nor a collection. -/
theorem layered?_covered {ls : List Layer} {t u : TypeExpr} (ht : t.Formed)
    (h : t.layered? ls = .ok u) (hc : coversNotes t.isAnnotated ls = true) :
    w.isStruct u = false ∧ w.isEnumerable u = false ∧
      (w.valueLike u = true → w.isStruct t = true) := by
  induction ls generalizing t with
  | nil => cases hc
  | cons l ls ih =>
    obtain ⟨v, hv, hrest⟩ := except_bind_ok h
    cases l with
    | notes vs =>
      have hs : w.isStruct v = w.isStruct t := congrArg Nature.struct (w.nature_annotated? hv)
      rw [← hs]
      exact ih (annotated?_formed ht hv) hrest (by rw [annotated?_isAnnotated hv]; exact hc)
    | option =>
      have ho := optionOf_of_optional? ht hv
      have hnature := w.nature_optional? ht hv
      cases hagain : coversNotes v.isAnnotated ls with
      | true =>
        obtain ⟨hs, he, hv'⟩ := ih ho.formed hrest hagain
        refine ⟨hs, he, fun hu => ?_⟩
        have hsv : w.isStruct v = true := hv' hu
        cases hnotes : t.isAnnotated with
        | true =>
          simp only [hnotes, if_true, nature, Nature.mk.injEq] at hnature
          rw [hnature.2.1] at hsv
          cases hsv
        | false =>
          simp only [hnotes, Bool.false_eq_true, if_false, nature, Nature.mk.injEq] at hnature
          rw [← hnature.2.1, hsv]
      | false =>
        have hnotes : t.isAnnotated = true := by
          rw [ho.not_annotated] at hagain
          simpa [coversNotes, hagain] using hc
        have hu := w.nature_layered? ho.formed hrest hagain
        rw [hnature, hnotes] at hu
        simp only [nature, if_true, Nature.mk.injEq] at hu
        refine ⟨hu.2.1, hu.2.2, fun hval => ?_⟩
        rw [← hu.1, hval]

/-- Layers of annotations and options keep the nature of a type just when no option stands directly
over annotations, or when the type is neither copied nor a collection to begin with. -/
theorem layered?_nature_iff {ls : List Layer} {t u : TypeExpr} (ht : t.Formed)
    (h : t.layered? ls = .ok u) :
    w.nature u = w.nature t ↔
      coversNotes t.isAnnotated ls = false ∨ (w.valueLike t = false ∧ w.isEnumerable t = false) := by
  cases hc : coversNotes t.isAnnotated ls with
  | false => exact iff_of_true (w.nature_layered? ht h hc) (.inl rfl)
  | true =>
    obtain ⟨hs, he, hv⟩ := w.layered?_covered ht h hc
    simp only [nature, Nature.mk.injEq, hs, he, Bool.true_eq_false, false_or]
    constructor
    · rintro ⟨hval, hstruct, henum⟩
      refine ⟨Bool.eq_false_iff.2 fun hcopied => ?_, henum.symm⟩
      rw [hv (by rw [hval, hcopied])] at hstruct
      cases hstruct
    · rintro ⟨hval, henum⟩
      have hstruct : w.isStruct t = false :=
        Bool.eq_false_iff.2 fun hs => by simp [w.valueLike_of_isStruct ht hs] at hval
      refine ⟨?_, hstruct.symm, henum.symm⟩
      rw [hval]
      exact Bool.eq_false_iff.2 fun hcopied => by simp [hv hcopied] at hstruct

/-- An integer with a note in an option, which is not copied any more. -/
theorem layered?_nature_iff_noted_int :
    (cls ClassId.int).layered? [.notes [.text "x"], .option] =
        .ok (.union false [.annotated (.cls ClassId.int) [.text "x"], noneType]) ∧
      (World.standard.nature (.union false [.annotated (.cls ClassId.int) [.text "x"], noneType]) =
          World.standard.nature (.cls ClassId.int) ↔
        coversNotes false [.notes [.text "x"], .option] = false ∨
          (World.standard.valueLike (.cls ClassId.int) = false ∧
            World.standard.isEnumerable (.cls ClassId.int) = false)) :=
  ⟨rfl, World.standard.layered?_nature_iff (formed_of_not_union rfl) rfl⟩

/-- Layers do not always keep the nature. -/
theorem layered?_nature_ne :
    ¬ ∀ (w : World) (ls : List Layer) (t u : TypeExpr), t.Formed → t.isNoneType = false →
      t.layered? ls = .ok u → w.nature u = w.nature t := by
  intro h
  have hint := h World.standard [.notes [.text "x"], .option] (.cls ClassId.int) _
    (formed_of_not_union rfl) rfl rfl
  revert hint
  decide

end World

end ModelContracts
