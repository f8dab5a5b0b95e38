import ModelContracts.Proofs.Synthesis.Refusing
import ModelContracts.Proofs.TypeExpr.Nature

/-!
Over which expression the derivation of contracts fails. A text is refused over a part of what is written,
and types with values that are copied have no such part. So a derivation that fails over an expression leads
to a type that a component refers to, that was formed before, or that a property or its markers have.
-/

namespace ModelContracts

namespace TypeExpr

mutual

/-- The expressions that are written where a type is, the type itself among them. -/
def parts : TypeExpr → List TypeExpr
  | .annotated base notes => .annotated base notes :: parts base
  | .union bar ts => .union bar ts :: allParts ts
  | .generic form origin args => .generic form origin args :: allParts args
  | .qualified q t => .qualified q t :: parts t
  | .params ts => .params ts :: allParts ts
  | .value v => .value v :: listedParts v
  | t => [t]
termination_by structural t => t

def allParts : List TypeExpr → List TypeExpr
  | [] => []
  | t :: ts => parts t ++ allParts ts
termination_by structural ts => ts

def listedParts : Value → List TypeExpr
  | .list items => allListedParts items
  | .tuple items => allListedParts items
  | .type t => parts t
  | v => [.value v]
termination_by structural v => v

def allListedParts : List Value → List TypeExpr
  | [] => []
  | v :: vs => listedParts v ++ allListedParts vs
termination_by structural vs => vs

end

theorem mem_allParts {p : TypeExpr} {ts : List TypeExpr} : p ∈ allParts ts ↔ ∃ t ∈ ts, p ∈ t.parts := by
  induction ts with
  | nil => simp [allParts]
  | cons t ts ih => simp [allParts, ih]

/-- All that is written of the type has a text. -/
def Written (t : TypeExpr) : Prop := ∀ p ∈ t.parts, ¬ p.Textless

theorem written_of_parts {t : TypeExpr} (h : t.parts = [t]) (ht : ¬ t.Textless) : t.Written := by
  intro p hp
  rw [h, List.mem_singleton] at hp
  rwa [hp]

theorem written_cls (c : ClassId) : (cls c).Written := written_of_parts rfl id

theorem written_literal (vs : List Value) : (literal vs).Written := written_of_parts rfl id

theorem written_annotated {t : TypeExpr} {vs : List Value} : (annotated t vs).Written ↔ t.Written := by
  simp [Written, parts, Textless]

theorem written_union {bar : Bool} {ts : List TypeExpr} :
    (union bar ts).Written ↔ ∀ t ∈ ts, t.Written := by
  simp only [Written, parts, List.forall_mem_cons, mem_allParts]
  exact ⟨fun h t ht p hp => h.2 p ⟨t, ht, hp⟩, fun h => ⟨id, fun p ⟨t, ht, hp⟩ => h t ht p hp⟩⟩

theorem written_under {t u : TypeExpr} {vs : List Value} (h : Under t u vs) : u.Written ↔ t.Written := by
  induction h with
  | bare => exact Iff.rfl
  | layer _ ih => rw [written_annotated, ih]

theorem written_flattened {ts : List TypeExpr} :
    (∀ t ∈ flattened ts, t.Written) ↔ ∀ t ∈ ts, t.Written := by
  induction ts with
  | nil => simp [flattened]
  | cons u ts ih =>
    cases u with
    | union bar us => rw [flattened, List.forall_mem_append, List.forall_mem_cons, written_union, ih]
    | _ =>
      rw [flattened, List.forall_mem_cons, List.forall_mem_cons, ih]
      intro bar us heq
      cases heq

theorem unionOf_written {ts : List TypeExpr} (h : ∀ t ∈ ts, t.Written) : (unionOf ts).Written := by
  have hkept : ∀ t ∈ distinct same (flattened ts), t.Written := fun t ht =>
    written_flattened.2 h t (mem_of_mem_distinct ht)
  unfold unionOf
  split
  next t ht => exact hkept t (by simp [ht])
  next us _ => exact written_union.2 hkept

theorem eq_of_same_cls {c : ClassId} {t : TypeExpr} (h : same (cls c) t = true) : t = cls c := by
  cases t with
  | cls d =>
    simp only [same, decide_eq_true_eq] at h
    rw [h]
  | _ => cases h

/-- When only one class is kept of some types, they all are the class. -/
theorem eq_cls_of_distinct {c : ClassId} {ts : List TypeExpr} (h : ∀ t ∈ distinct same ts, t = cls c) :
    ∀ t ∈ ts, t = cls c := by
  induction ts with
  | nil => exact List.forall_mem_nil _
  | cons u ts ih =>
    rw [distinct, List.forall_mem_cons] at h
    obtain ⟨rfl, hrest⟩ := h
    refine List.forall_mem_cons.2 ⟨rfl, ih fun t ht => ?_⟩
    by_cases hsame : same (cls c) t = true
    · exact eq_of_same_cls hsame
    · exact hrest t (List.mem_filter.2 ⟨ht, by simpa using hsame⟩)

theorem written_of_unionOf_cls {c : ClassId} {ts : List TypeExpr} (h : unionOf ts = cls c) :
    ∀ t ∈ ts, t.Written := by
  rw [← written_flattened]
  unfold unionOf at h
  split at h
  next u hu =>
    have hall : ∀ t ∈ flattened ts, t = cls c := eq_cls_of_distinct (by simp [hu, h])
    intro t ht
    rw [hall t ht]
    exact written_cls c
  next => cases h

theorem written_of_noneType {t : TypeExpr} (h : t.isNoneType = true) : t.Written := by
  cases t with
  | cls c => exact written_cls c
  | _ => cases h

theorem written_of_core {t : TypeExpr} {c : ClassId} (h : t.core = cls c) : t.Written := by
  rw [← written_under (under_strip t)]
  unfold core unwrap at h
  split at h
  next bar ts hbase =>
    rw [hbase, written_union]
    have hmembers : ∀ t ∈ ts.filter (!·.isNoneType), t.Written := by
      split_ifs at h
      split at h
      next u hu =>
        rw [hu, h]
        simp [written_cls]
      next => exact written_of_unionOf_cls h
    intro t ht
    by_cases hnone : t.isNoneType = true
    · exact written_of_noneType hnone
    · exact hmembers t (List.mem_filter.2 ⟨ht, by simpa using hnone⟩)
  next => rw [h]; exact written_cls c

theorem asReference_written {t : TypeExpr} (h : t.Written) : t.asReference.Written := by
  cases t with
  | forward s => exact written_of_parts rfl id
  | _ => exact h

theorem nullable?_written {t u : TypeExpr} (ht : t.Written) (h : t.nullable? = .ok u) : u.Written := by
  unfold nullable? optional? asArgument at h
  split_ifs at h
  · cases h
    exact ht
  · cases h
  · cases h
    exact unionOf_written (by simp [asReference_written ht, written_cls, noneType])

end TypeExpr

open TypeExpr

namespace World

variable (w : World)

theorem valueOption_written {t : TypeExpr} (h : w.valueOption t = true) : t.Written := by
  unfold valueOption at h
  split at h
  · exact written_literal _
  · exact written_cls _
  · unfold isStruct at h
    cases hc : t.core with
    | cls c => exact written_of_core hc
    | _ => simp [hc, class?] at h

mutual

theorem valueLike_written : (t : TypeExpr) → w.valueLike t = true → t.Written
  | .annotated base _ => fun h => written_annotated.2 (valueLike_written base h)
  | .literal _ => fun _ => written_literal _
  | .cls _ => fun _ => written_cls _
  | .union bar ts => by
    intro h
    unfold valueLike at h
    rw [written_union]
    split_ifs at h with hoption
    · intro t ht
      by_cases hnone : t.isNoneType = true
      · exact written_of_noneType hnone
      · exact w.valueOption_written (List.all_eq_true.1 h t (List.mem_filter.2 ⟨ht, by simpa using hnone⟩))
    · exact allValueLike_written ts h
  | .generic .. => nofun
  | .qualifier _ => nofun
  | .qualified .. => nofun
  | .forward _ => nofun
  | .forwardRef _ => nofun
  | .typeVar _ => nofun
  | .ellipsis => nofun
  | .params _ => nofun
  | .value _ => nofun
termination_by structural t => t

theorem allValueLike_written : (ts : List TypeExpr) → w.allValueLike ts = true → ∀ t ∈ ts, t.Written
  | [] => fun _ => nofun
  | t :: ts => by
    intro h
    unfold allValueLike at h
    rw [Bool.and_eq_true, Bool.or_eq_true] at h
    obtain ⟨hfirst, hrest⟩ := h
    exact List.forall_mem_cons.2
      ⟨hfirst.elim written_of_noneType (valueLike_written t), allValueLike_written ts hrest⟩
termination_by structural ts => ts

end

end World

/-! Which part of a type is refused. -/

namespace Recording

/-- Only some expressions are refused. -/
def Blames {α : Type} (ts : List TypeExpr) (m : Recording α) : Prop := FailsWith (fun e => e.type ∈ ts) m

theorem Blames.mono {α : Type} {ts us : List TypeExpr} {m : Recording α} (h : Blames ts m) (hs : ts ⊆ us) :
    Blames us m := fun _ _ _ hr => hs (h hr)

variable (w : World)

theorem className_blames (ts : List TypeExpr) (c : ClassId) : Blames ts (className w c) := by
  unfold className
  split_ifs
  · exact .pure _
  · exact .of_ok fun _ => ⟨_, _, rfl⟩
  · exact .of_ok fun _ => ⟨_, _, rfl⟩

theorem form_blames (ts : List TypeExpr) (name : String) : Blames ts (form name) :=
  .of_ok fun _ => ⟨_, _, rfl⟩

theorem literals_blames (ts : List TypeExpr) (vs : List Value) : Blames ts (literals w vs) := by
  induction vs with
  | nil => exact .pure _
  | cons v vs ih =>
    have hrest (text : String) : Blames ts (do return text :: (← literals w vs)) := ih.bind fun _ => .pure _
    unfold literals
    split
    · exact (className_blames w ts _).bind fun _ => (FailsWith.pure _).bind hrest
    · exact (FailsWith.pure _).bind hrest

mutual

theorem text_blames (inside : Bool) : (t : TypeExpr) → Blames t.parts (text w inside t)
  | .cls c => className_blames w _ c
  | .forward _ => .pure _
  | .forwardRef _ => .pure _
  | .annotated base _ => (text_blames false base).mono (List.subset_cons_self _ _)
  | .union bar ts => by
    have hsub : allParts ts ⊆ (TypeExpr.union bar ts).parts := List.subset_cons_self _ _
    unfold text
    split_ifs
    · exact (form_blames _ _).bind fun _ => ((others_blames ts).mono hsub).bind fun _ => .pure _
    · exact (form_blames _ _).bind fun _ => ((texts_blames false ts).mono hsub).bind fun _ => .pure _
  | .literal vs => (literals_blames w _ vs).bind fun _ => (form_blames _ _).bind fun _ => .pure _
  | .generic _ origin args => (className_blames w _ origin).bind fun _ =>
      ((texts_blames true args).mono (List.subset_cons_self _ _)).bind fun _ => .pure _
  | .qualified _ t => (form_blames _ _).bind fun _ =>
      ((text_blames true t).mono (List.subset_cons_self _ _)).bind fun _ => .pure _
  | .qualifier _ => .throw (List.mem_singleton_self _)
  | .typeVar _ => .throw (List.mem_singleton_self _)
  | .ellipsis => by
    unfold text
    split_ifs
    · exact .pure _
    · exact .throw (List.mem_singleton_self _)
  | .params ts => by
    unfold text
    split_ifs
    · exact ((texts_blames true ts).mono (List.subset_cons_self _ _)).bind fun _ => .pure _
    · exact .throw List.mem_cons_self
  | .value v => by
    unfold text
    split_ifs
    · exact (listed_blames v).mono (List.subset_cons_self _ _)
    · exact .throw List.mem_cons_self
termination_by structural t => t

theorem texts_blames (inside : Bool) : (ts : List TypeExpr) → Blames (allParts ts) (texts w inside ts)
  | [] => .pure _
  | t :: ts => ((text_blames inside t).mono (List.subset_append_left _ _)).bind fun _ =>
      ((texts_blames inside ts).mono (List.subset_append_right _ _)).bind fun _ => .pure _
termination_by structural ts => ts

theorem others_blames : (ts : List TypeExpr) → Blames (allParts ts) (others w ts)
  | [] => .pure _
  | t :: ts => by
    have hrest := (others_blames ts).mono (List.subset_append_right t.parts _)
    unfold others
    split_ifs
    · exact hrest
    · exact ((text_blames false t).mono (List.subset_append_left _ _)).bind fun _ =>
        hrest.bind fun _ => .pure _
termination_by structural ts => ts

theorem listed_blames : (v : Value) → Blames (listedParts v) (listed w v)
  | .list items => (listedAll_blames items).bind fun _ => .pure _
  | .tuple items => (listedAll_blames items).bind fun _ => .pure _
  | .type t => text_blames true t
  | .text _ => .pure _
  | .none => .pure _
  | .bool _ => .throw (List.mem_singleton_self _)
  | .int _ => .throw (List.mem_singleton_self _)
  | .float _ => .throw (List.mem_singleton_self _)
  | .complex .. => .throw (List.mem_singleton_self _)
  | .decimal _ => .throw (List.mem_singleton_self _)
  | .fraction _ => .throw (List.mem_singleton_self _)
  | .bytes _ => .throw (List.mem_singleton_self _)
  | .buffer _ => .throw (List.mem_singleton_self _)
  | .member .. => .throw (List.mem_singleton_self _)
  | .dict _ => .throw (List.mem_singleton_self _)
  | .date .. => .throw (List.mem_singleton_self _)
  | .moment .. => .throw (List.mem_singleton_self _)
  | .number .. => .throw (List.mem_singleton_self _)
  | .marker .. => .throw (List.mem_singleton_self _)
termination_by structural v => v

theorem listedAll_blames : (vs : List Value) → Blames (allListedParts vs) (listedAll w vs)
  | [] => .pure _
  | v :: vs => ((listed_blames v).mono (List.subset_append_left _ _)).bind fun _ =>
      ((listedAll_blames vs).mono (List.subset_append_right _ _)).bind fun _ => .pure _
termination_by structural vs => vs

end

end Recording

/-! What a derivation keeps while it writes. -/

/-- Runs from states of a kind end in such states, and those that fail do so with an error of a kind. -/
def Stays {ε σ α : Type} (I : σ → Prop) (P : ε → Prop) (m : ExceptT ε (StateM σ) α) : Prop :=
  ∀ s, I s → I (m.run s).2 ∧ ∀ e, (m.run s).1 = .error e → P e

namespace Stays

variable {ε σ α β : Type} {I : σ → Prop} {P : ε → Prop} {m : ExceptT ε (StateM σ) α}

theorem of_fails (h : ∀ s, I s → I (m.run s).2) (hf : FailsWith P m) : Stays I P m :=
  fun s hs => ⟨h s hs, fun _ he => hf (Prod.ext he rfl)⟩

theorem pure (a : α) : Stays I P (pure a : ExceptT ε (StateM σ) α) := .of_fails (fun _ => id) (.pure a)

theorem throw {e : ε} (h : P e) : Stays I P (throw e : ExceptT ε (StateM σ) α) :=
  .of_fails (fun _ => id) (.throw h)

theorem modify {f : σ → σ} (h : ∀ s, I s → I (f s)) :
    Stays I P (modify f : ExceptT ε (StateM σ) PUnit) := .of_fails h (.modify f)

theorem get : Stays I P (get : ExceptT ε (StateM σ) σ) := .of_fails (fun _ => id) .get

theorem bind {f : α → ExceptT ε (StateM σ) β} (hm : Stays I P m) (hf : ∀ a, Stays I P (f a)) :
    Stays I P (m >>= f) := by
  intro s hs
  obtain ⟨hstate, herror⟩ := hm s hs
  rw [run_bind]
  rcases hr : m.run s with ⟨e | a, t⟩ <;> rw [hr] at hstate herror
  · exact ⟨hstate, fun e' he => by cases he; exact herror e rfl⟩
  · exact hf a t hstate

theorem map {f : α → β} (hm : Stays I P m) : Stays I P (f <$> m) := by
  intro s hs
  obtain ⟨hstate, herror⟩ := hm s hs
  rw [run_map]
  refine ⟨hstate, fun e he => herror e ?_⟩
  rcases hr : (m.run s).1 with e' | a <;> rw [hr] at he <;> cases he
  rfl

theorem forM_of_mem {f : α → ExceptT ε (StateM σ) PUnit} {l : List α} (h : ∀ a ∈ l, Stays I P (f a)) :
    Stays I P (l.forM f) := by
  induction l with
  | nil => exact pure _
  | cons a l ih =>
    obtain ⟨ha, hl⟩ := List.forall_mem_cons.1 h
    exact ha.bind fun _ => ih hl

theorem mapM_of_mem {f : α → ExceptT ε (StateM σ) β} {l : List α} (h : ∀ a ∈ l, Stays I P (f a)) :
    Stays I P (l.mapM f) := by
  induction l with
  | nil => exact pure _
  | cons a l ih =>
    obtain ⟨ha, hl⟩ := List.forall_mem_cons.1 h
    rw [List.mapM_cons]
    exact ha.bind fun _ => (ih hl).bind fun _ => pure _

end Stays

/-- No type that was formed has the expression as a part. -/
def FormMemory.Spares (p : TypeExpr) (m : FormMemory) : Prop := ∀ f ∈ m, p ∉ f.result.parts

theorem FormMemory.Spares.nullable {p t u : TypeExpr} {m m' : FormMemory} (hm : m.Spares p)
    (hp : p.Textless) (ht : t.Written) (h : m.nullable? t = .ok (u, m')) : p ∉ u.parts ∧ m'.Spares p := by
  have hfree {v : TypeExpr} (hv : v.Written) : p ∉ v.parts := fun hmem => hv p hmem hp
  unfold nullable? at h
  split_ifs at h
  · cases h
    exact ⟨hfree ht, hm⟩
  · split at h
    next v hv =>
      cases h
      unfold known? at hv
      split_ifs at hv
      obtain ⟨f, hf, rfl⟩ := Option.map_eq_some_iff.1 hv
      exact ⟨hm f (List.mem_of_find?_eq_some hf), hm⟩
    next =>
      rcases hn : t.nullable? with e | v <;> rw [hn] at h <;> cases h
      have hv := nullable?_written ht hn
      refine ⟨hfree hv, ?_⟩
      unfold remember
      split_ifs
      · exact hm
      · intro f hf
        rcases List.mem_append.1 hf with hf | hf
        · exact hm f hf
        · rw [List.mem_singleton.1 hf]
          exact hfree hv

/-- A run that forms no type with the expression as a part, and is not refused over the expression. -/
def Emitting.Spares {α : Type} (p : TypeExpr) (m : Emitting α) : Prop :=
  Stays (fun e : Emission => e.formed.Spares p) (· ≠ .unrenderable p) m

/-- The types in the fields of a marker that are written. -/
def Marker.writtenType (m : Marker) : TypeExpr := (m.field "calculator_type").toType

def Marker.Spares (p : TypeExpr) (m : Marker) : Prop := p ∉ m.writtenType.parts

namespace Emitting

variable {p : TypeExpr} (w : World)

theorem recording_spares {α : Type} {r : Recording α} {ts : List TypeExpr} (h : Recording.Blames ts r)
    (hp : p ∉ ts) : Spares p (recording r) := by
  refine .of_fails (fun s hs => ?_) (recording_failsWith fun f _ _ hr hf => ?_)
  · simp only [recording, ExceptT.run]
    rcases r s.ledger with ⟨f | a, l⟩ <;> exact hs
  · cases hf
    exact hp (h hr)

theorem cls_spares (c : ClassId) : Spares p (cls w c) :=
  recording_spares (Recording.className_blames w [] c) List.not_mem_nil

theorem type_spares {t : TypeExpr} (h : p ∉ t.parts) : Spares p (type w t) :=
  recording_spares (Recording.text_blames w false t) h

theorem log_spares (r : LogRecord) : Spares p (log r) := .modify fun _ => id

theorem reserve_spares (name : String) : Spares p (reserve name) := by
  have hreserve : Spares p (modify fun s : Emission => { s with ledger := s.ledger.reserve name }) :=
    .modify fun _ => id
  unfold reserve
  refine Stays.get.bind fun _ => ?_
  split_ifs
  · exact (log_spares _).bind fun _ => hreserve
  · exact hreserve

/-- The option of a type of values is written without the expression. -/
theorem nullable_type_spares {t : TypeExpr} (hp : p.Textless) (ht : t.Written) :
    Spares p (do type w (← nullable t)) := by
  intro s hs
  rcases hn : s.formed.nullable? t with e | ⟨u, formed⟩
  · have hrun : (nullable t).run s = (.error (.form e), s) := by simp only [nullable, ExceptT.run, hn]
    rw [run_bind_of_error hrun]
    refine ⟨hs, fun f hf hblamed => ?_⟩
    cases hf
    cases hblamed
  · have hrun : (nullable t).run s = (.ok u, { s with formed := formed }) := by
      simp only [nullable, ExceptT.run, hn]
    obtain ⟨hu, hformed⟩ := FormMemory.Spares.nullable hs hp ht hn
    rw [run_bind_of_ok hrun]
    exact type_spares w hu _ hformed

end Emitting

section

open Emitting

variable {p : TypeExpr} {w : World}

theorem enumText_spares (c : ClassId) (v : Value) : Emitting.Spares p (enumText w c v) := by
  unfold enumText memberText
  split
  · exact (cls_spares w _).bind fun _ => .pure _
  · exact .throw nofun
  · exact .throw nofun
  · exact .throw nofun

theorem plainLiteral_spares (v : Value) : Emitting.Spares p (plainLiteral w v) := by
  unfold plainLiteral constructed
  split
  · exact cls_spares w _
  all_goals first | exact .pure _ | exact .throw nofun | exact (cls_spares w _).bind fun _ => .pure _

theorem literal_spares (declared : Option TypeExpr) (v : Value) :
    Emitting.Spares p (literal w declared v) := by
  unfold literal
  split
  · exact .pure _
  · split
    · exact .pure _
    · split
      · exact .pure _
      · split
        · exact enumText_spares _ _
        · exact plainLiteral_spares _

theorem quoted_spares (v : Value) : Emitting.Spares p (quoted v) := by
  unfold quoted
  split
  · exact .pure _
  · exact .throw nofun

theorem refreshText_spares (v : Value) : Emitting.Spares p (refreshText w v) := by
  refine (cls_spares w _).bind fun _ => ?_
  split
  · exact .pure _
  · exact .throw nofun

theorem locateRemembered_spares (name : String) :
    Emitting.Spares p (Converter.locateRemembered w name) := by
  have hremember (c : Option ClassId) : Emitting.Spares p (do
      modify fun s : Emission => { s with memory := Converter.remember s.memory name c }
      return c : Emitting (Option ClassId)) := Stays.bind (.modify fun _ => id) fun _ => .pure _
  unfold Converter.locateRemembered
  refine Stays.get.bind fun _ => ?_
  split
  · exact hremember _
  · split
    · exact .throw nofun
    · exact hremember _

theorem resolve_spares (m : Marker) : Emitting.Spares p (Converter.resolve w m) := by
  unfold Converter.resolve
  split
  next e he =>
    obtain ⟨v, rfl⟩ := Converter.converterName_error he
    exact .throw nofun
  · split_ifs
    · exact .pure _
    · refine Stays.bind ?_ fun _ => .pure _
      unfold Converter.named
      split
      · exact .pure _
      · exact locateRemembered_spares _

theorem stockText_spares {m : Marker} {d : Descriptor} {shape : MarkerShape} (h : m.Spares p) :
    Emitting.Spares p (stockText w m d shape) := by
  have call {shape : MarkerShape} {args : Emitting String} (hargs : Emitting.Spares p args) :
      Emitting.Spares p (some <$> stockCall w shape args) := by
    refine Stays.map ?_
    exact (cls_spares w _).bind fun _ => hargs.bind fun _ => .pure _
  unfold stockText
  split
  case h_1 => exact call (literal_spares _ _)
  case h_2 => exact call (quoted_spares _)
  case h_3 => exact call ((quoted_spares _).bind fun _ => (quoted_spares _).bind fun _ => .pure _)
  case h_4 => exact call (refreshText_spares _)
  case h_5 =>
    refine (resolve_spares m).bind fun c => ?_
    cases c with
    | none => exact .pure _
    | some c => exact call (cls_spares w c)
  case h_6 => exact call (quoted_spares _)
  case h_7 => exact call (quoted_spares _)
  case h_8 => exact call (literal_spares _ _)
  case h_9 =>
    split
    · exact call ((literal_spares _ _).bind fun _ => .pure _)
    · exact call (type_spares w h)
  case h_10 => exact call (type_spares w h)
  case h_11 => exact call (literal_spares _ _)
  case h_12 => exact (cls_spares w _).bind fun _ => .pure _

theorem translateAll_spares {b : RuleBook} {d : Descriptor} (h : ∀ m ∈ d.markers, m.Spares p)
    (hp : p.Textless) : Emitting.Spares p (b.translateAll w d) := by
  have hall : ∀ m ∈ RuleBook.markersToTranslate w d, m.Spares p := by
    unfold RuleBook.markersToTranslate
    split_ifs
    · intro m hm
      rcases List.mem_append.1 hm with hm | hm
      · exact h m hm
      · rw [List.mem_singleton.1 hm]
        exact fun hmem => written_cls _ p hmem hp
    · exact h
  refine (Stays.mapM_of_mem fun m hm => ?_).bind fun _ => .pure _
  unfold RuleBook.translate
  split
  · exact .pure _
  next r _ =>
    refine Stays.bind ?_ fun _ => .pure _
    unfold Emitter.text
    split
    · exact stockText_spares (hall m hm)
    · exact .pure _
    · exact (cls_spares w _).bind fun _ => .pure _

end

/-! Contracts. -/

/-- Neither the type of the property nor one that its markers hold has the expression as a part. -/
structure Descriptor.Spares (p : TypeExpr) (d : Descriptor) : Prop where
  type : p ∉ d.type.parts
  markers : ∀ m ∈ d.markers, m.Spares p

def Synthesis.Spares {α : Type} (p : TypeExpr) (m : Synthesis α) : Prop :=
  Stays (fun d : Draft => d.emission.formed.Spares p) (· ≠ .unrenderable p) m

theorem Synthesis.emitting_spares {α : Type} {p : TypeExpr} {m : Emitting α} (h : m.Spares p) :
    Synthesis.Spares p (emitting m) := fun d hd => h d.emission hd

theorem Synthesis.emitting_bind {α β : Type} (m : Emitting α) (f : α → Emitting β) :
    emitting (m >>= f) = (do emitting (f (← emitting m))) := by
  funext d
  show (emitting (m >>= f)).run d = (emitting m >>= fun a => emitting (f a)).run d
  have hrun {γ : Type} (n : Emitting γ) (d : Draft) : (emitting n).run d =
      ((n.run d.emission).1, { d with emission := (n.run d.emission).2 }) := rfl
  rw [run_bind, hrun, hrun, run_bind]
  rcases m.run d.emission with ⟨e | a, t⟩ <;> rfl

namespace Synthesizer

open Synthesis Emitting

variable {s : Synthesizer} {p : TypeExpr} {filter : PropertyFilter}

theorem cls_spares (c : ClassId) : Synthesis.Spares p (s.cls c) :=
  emitting_spares (Emitting.cls_spares s.world c)

theorem type_spares {t : TypeExpr} (h : p ∉ t.parts) : Synthesis.Spares p (s.type t) :=
  emitting_spares (Emitting.type_spares s.world h)

theorem memberType_spares {d : Descriptor} (hp : p.Textless) (h : p ∉ d.type.parts) :
    Synthesis.Spares p (s.memberType d) := by
  unfold memberType
  split
  · exact type_spares h
  · split
    · refine Stays.get.bind fun _ => ?_
      split
      · exact .pure _
      · exact type_spares h
    · split_ifs with hvalue
      · unfold valueText
        split_ifs
        · exact type_spares h
        · have hwritten := s.world.valueLike_written _ hvalue
          have htext : Synthesis.Spares p (emitting (do Emitting.type s.world (← nullable d.type))) :=
            emitting_spares (nullable_type_spares s.world hp hwritten)
          rwa [emitting_bind] at htext
      · exact type_spares h

theorem member_spares {d : Descriptor} (hp : p.Textless) (h : d.Spares p) :
    Synthesis.Spares p (s.member d) :=
  (memberType_spares hp h.type).bind fun _ =>
    (emitting_spares (translateAll_spares h.markers hp)).bind fun _ => .pure _

theorem openContract_spares (c : Component) (around : Option String) :
    Synthesis.Spares p (s.openContract c around) := by
  have hclaim (name : String) (k : ClassId) : Synthesis.Spares p (claimName name k) := by
    unfold claimName
    refine Stays.get.bind fun _ => ?_
    split
    · exact .throw nofun
    · exact .modify fun _ => id
  have hheader (k : ClassId) (isAbstract : Bool) : Synthesis.Spares p (s.headerLines k isAbstract) := by
    unfold headerLines
    refine (cls_spares _).bind fun _ => ?_
    split_ifs
    · exact (cls_spares _).bind fun _ => .pure _
    · exact .pure _
  unfold openContract
  refine (hclaim _ _).bind fun _ => (emitting_spares (reserve_spares _)).bind fun _ => ?_
  refine (cls_spares _).bind fun _ => (hheader _ _).bind fun _ => (cls_spares _).bind fun _ => ?_
  refine Stays.get.bind fun _ => Stays.bind (.modify fun _ => id) fun _ => ?_
  exact (emitting_spares (log_spares _)).bind fun _ => .pure _

section

variable {create : Component → Option String → Synthesis Nat}

theorem addMembers_spares {c : Component} (place : Nat) (name : String) {ds : List Descriptor}
    (hp : p.Textless) (h : ∀ c' around, c'.filter = c.filter → Synthesis.Spares p (create c' around))
    (hds : ∀ d ∈ ds, d.Spares p) (seen : List String) :
    Synthesis.Spares p (s.addMembers create c place name ds seen) := by
  have hnested (d : Descriptor) : Synthesis.Spares p (s.createNested create c name d) := by
    unfold createNested
    split
    next nested _ =>
      refine Stays.get.bind fun _ => ?_
      split_ifs
      · exact (h (nestedComponent c nested) (some name) rfl).bind fun _ => .pure _
      · exact .pure _
    · exact .pure _
  induction ds generalizing seen with
  | nil => exact .pure _
  | cons d rest ih =>
    obtain ⟨hd, hrest⟩ := List.forall_mem_cons.1 hds
    unfold addMembers
    split_ifs
    · exact ih hrest seen
    · refine Stays.bind ?_ fun _ => ih hrest _
      exact (hnested d).bind fun _ => (member_spares hp hd).bind fun _ => .modify fun _ => id

end

/-- No property of a class that the filter accepts has the expression. -/
def AllSpare (s : Synthesizer) (p : TypeExpr) (filter : PropertyFilter) : Prop :=
  ∀ c kept, s.accepted c filter = .ok kept → ∀ d ∈ kept, d.Spares p

theorem create_spares (hp : p.Textless) (h : s.AllSpare p filter) (fuel : Nat) (c : Component)
    (around : Option String) (hfilter : c.filter = filter) : Synthesis.Spares p (s.create fuel c around) := by
  induction fuel generalizing c around with
  | zero => exact .throw fun hblamed => by cases hblamed
  | succ fuel ih =>
    unfold create
    refine (openContract_spares c around).bind fun opened => ?_
    dsimp only
    rcases hkept : s.accepted c.type c.filter with e | kept
    · rcases accepted_error hkept with ⟨name, rfl⟩ | ⟨v, rfl⟩
      · exact .throw fun hblamed => by cases hblamed
      · exact .throw fun hblamed => by cases hblamed
    · refine Stays.bind ?_ fun _ => .pure _
      exact addMembers_spares opened.1 opened.2 hp
        (fun c' around' hc' => ih c' around' (hc'.trans hfilter)) (h c.type kept (hfilter ▸ hkept)) []

/-- A derivation is not refused over an expression that none of the types has that it is given. -/
theorem synthesize_spares {components : List Component} (hp : p.Textless)
    (href : ∀ c ∈ components, ∀ t ∈ c.referenceTypes, p ∉ t.parts)
    (h : ∀ c ∈ components, s.AllSpare p c.filter) : Synthesis.Spares p (s.synthesize components) := by
  refine (Stays.forM_of_mem fun c hc => ?_).bind fun _ => ?_
  · unfold addComponent
    refine (Stays.forM_of_mem fun t ht => (type_spares (href c hc t ht)).map).bind fun _ => ?_
    refine Stays.get.bind fun _ => ?_
    split_ifs
    · exact emitting_spares (log_spares _)
    · exact (create_spares hp (h c hc) s.depth c none rfl).bind fun _ => .pure _
  · refine (emitting_spares ?_).bind fun _ => Stays.get.bind fun _ => .pure _
    exact recording_spares (Recording.form_blames [] "Annotated") List.not_mem_nil

end Synthesizer

end ModelContracts
