import Mathlib.Tactic.SplitIfs
import ModelContracts.Contract.Synthesis
import ModelContracts.Proofs.Running

/-!
What writing a contract can fail with. Types, literals and annotations fail over a text of their own;
only the derivation itself reports a name that two classes share, or a bound on its depth.
-/

namespace ModelContracts

/-- An error over what is written, not over the contracts that are derived. -/
def EmissionError.IsTextual : EmissionError → Prop
  | .nameConflict .. | .tooDeep => False
  | _ => True

open EmissionError

namespace Emitting

theorem recording_failsWith {α : Type} {P : EmissionError → Prop} {r : Recording α}
    (h : FailsWith (fun e => P (.unrenderable e.type)) r) : FailsWith P (recording r) := by
  intro s e t hrun
  rcases hr : r.run s.ledger with ⟨e' | a, l⟩
  · have hfails : (recording r).run s = (.error (.unrenderable e'.type), { s with ledger := l }) := by
      simp only [recording, ExceptT.run] at hr ⊢
      rw [hr]
    rw [hfails] at hrun
    cases hrun
    exact h hr
  · have hends : (recording r).run s = (.ok a, { s with ledger := l }) := by
      simp only [recording, ExceptT.run] at hr ⊢
      rw [hr]
    rw [hends] at hrun
    cases hrun

theorem recording_textual {α : Type} (r : Recording α) : FailsWith IsTextual (recording r) :=
  recording_failsWith fun _ _ _ _ => trivial

theorem type_textual (w : World) (t : TypeExpr) : FailsWith IsTextual (type w t) :=
  recording_textual _

/-- A class always has a text. -/
theorem cls_succeeds (w : World) (c : ClassId) (s : Emission) :
    ∃ text t, (cls w c).run s = (.ok text, t) := by
  unfold cls Recording.className
  split_ifs
  · exact ⟨_, _, rfl⟩
  · exact ⟨_, _, rfl⟩
  · exact ⟨_, _, rfl⟩

theorem cls_textual (w : World) (c : ClassId) : FailsWith IsTextual (cls w c) :=
  recording_textual _

theorem nullable_textual (t : TypeExpr) : FailsWith IsTextual (nullable t) := by
  intro s e u h
  rcases hn : s.formed.nullable? t with e' | ⟨v, m⟩
  · have hrun : (nullable t).run s = (.error (.form e'), s) := by
      simp only [nullable, ExceptT.run, hn]
    rw [hrun] at h
    cases h
    trivial
  · have hrun : (nullable t).run s = (.ok v, { s with formed := m }) := by
      simp only [nullable, ExceptT.run, hn]
    rw [hrun] at h
    cases h

theorem reserve_succeeds (name : String) (s : Emission) :
    ∃ t, (reserve name).run s = (.ok ⟨⟩, t) := by
  unfold reserve log
  rw [run_bind, run_get]
  dsimp only
  split_ifs
  · exact ⟨_, rfl⟩
  · exact ⟨_, rfl⟩

end Emitting

open Emitting

variable (w : World)

theorem memberText_textual (c : ClassId) (label : Option String) :
    FailsWith IsTextual (memberText w c label) :=
  (cls_textual w c).bind fun _ => .pure _

theorem enumText_textual (c : ClassId) (v : Value) : FailsWith IsTextual (enumText w c v) := by
  unfold enumText
  split
  · exact memberText_textual w _ _
  · exact .throw trivial
  · exact .throw trivial
  · exact .throw trivial

theorem plainLiteral_textual (v : Value) : FailsWith IsTextual (plainLiteral w v) := by
  unfold plainLiteral constructed
  split
  · exact cls_textual w _
  all_goals first | exact .pure _ | exact .throw trivial | exact (cls_textual w _).bind fun _ => .pure _

theorem literal_textual (declared : Option TypeExpr) (v : Value) :
    FailsWith IsTextual (literal w declared v) := by
  unfold literal
  split
  · exact .pure _
  · split
    · exact .pure _
    · split
      · exact .pure _
      · split
        · exact enumText_textual w _ _
        · exact plainLiteral_textual w _

theorem quoted_textual (v : Value) : FailsWith IsTextual (quoted v) := by
  unfold quoted
  split
  · exact .pure _
  · exact .throw trivial

theorem refreshText_textual (v : Value) : FailsWith IsTextual (refreshText w v) := by
  unfold refreshText
  refine (cls_textual w _).bind fun _ => ?_
  split
  · exact .pure _
  · exact .throw trivial

theorem stockCall_textual (shape : MarkerShape) {args : Emitting String}
    (h : FailsWith IsTextual args) : FailsWith IsTextual (stockCall w shape args) :=
  (cls_textual w _).bind fun _ => h.bind fun _ => .pure _

namespace Converter

theorem locateRemembered_textual (name : String) :
    FailsWith IsTextual (locateRemembered w name) := by
  unfold locateRemembered
  refine FailsWith.get.bind fun _ => ?_
  split
  · exact (FailsWith.modify _).bind fun _ => .pure _
  · split
    · exact .throw trivial
    · exact (FailsWith.modify _).bind fun _ => .pure _

theorem converterName_error {m : Marker} {e : EmissionError} (h : m.converterName = .error e) :
    ∃ v, e = .malformedField v := by
  unfold Marker.converterName at h
  split at h
  · cases h
  · cases h
  · split at h <;> cases h
    exact ⟨_, rfl⟩

theorem resolve_textual (m : Marker) : FailsWith IsTextual (resolve w m) := by
  unfold resolve
  split
  next e he =>
    obtain ⟨v, rfl⟩ := converterName_error he
    exact .throw trivial
  · split_ifs
    · exact .pure _
    · refine FailsWith.bind ?_ fun _ => .pure _
      unfold named
      split
      · exact .pure _
      · exact locateRemembered_textual w _

end Converter

theorem stockText_textual (m : Marker) (d : Descriptor) (shape : MarkerShape) :
    FailsWith IsTextual (stockText w m d shape) := by
  have call {shape : MarkerShape} {args : Emitting String} (h : FailsWith IsTextual args) :
      FailsWith IsTextual (some <$> stockCall w shape args) := (stockCall_textual w shape h).map
  have field (v : Value) : FailsWith IsTextual (quoted v) := quoted_textual v
  unfold stockText
  split
  · exact call (literal_textual w _ _)
  · exact call (field _)
  · exact call ((field _).bind fun _ => (field _).bind fun _ => .pure _)
  · exact call (refreshText_textual w _)
  · refine (Converter.resolve_textual w m).bind fun c => ?_
    cases c with
    | none => exact .pure _
    | some c => exact call (cls_textual w c)
  · exact call (field _)
  · exact call (field _)
  · exact call (literal_textual w _ _)
  · split
    · exact call ((literal_textual w _ _).bind fun _ => .pure _)
    · exact call (type_textual w _)
  · exact call (type_textual w _)
  · exact call (literal_textual w _ _)
  · exact (cls_textual w _).bind fun _ => .pure _

theorem emitter_textual (m : Marker) (d : Descriptor) (e : Emitter) :
    FailsWith IsTextual (e.text w m d) := by
  cases e with
  | stock shape => exact stockText_textual w m d shape
  | fixed text => exact .pure _
  | ownCall => exact (cls_textual w _).bind fun _ => .pure _

theorem translateAll_textual (b : RuleBook) (d : Descriptor) :
    FailsWith IsTextual (b.translateAll w d) := by
  refine (FailsWith.mapM (fun m => ?_) _).bind fun _ => .pure _
  unfold RuleBook.translate
  split
  · exact .pure _
  · exact (emitter_textual w m d _).bind fun _ => .pure _

/-! Filters fail over the name of a converter only. -/

theorem filterAuxM_error {α : Type} {P : EmissionError → Prop}
    {f : α → Except EmissionError Bool} (hf : ∀ a e, f a = .error e → P e) {l kept : List α}
    {e : EmissionError} (h : List.filterAuxM f l kept = .error e) : P e := by
  induction l generalizing kept with
  | nil => cases h
  | cons a l ih =>
    rcases except_bind_error h with ha | ⟨b, -, hb⟩
    · exact hf a e ha
    · exact ih hb

theorem mapM_error {α β : Type} {P : EmissionError → Prop} {f : α → Except EmissionError β}
    (hf : ∀ a e, f a = .error e → P e) {l : List α} {e : EmissionError}
    (h : l.mapM f = .error e) : P e := by
  induction l with
  | nil => cases h
  | cons a l ih =>
    rw [List.mapM_cons] at h
    rcases except_bind_error h with ha | ⟨b, -, hb⟩
    · exact hf a e ha
    · rcases except_bind_error hb with hl | ⟨bs, -, hbs⟩
      · exact ih hl
      · cases hbs

theorem Descriptor.removeConverters_error {d : Descriptor} {start : String} {e : EmissionError}
    (h : d.removeConverters w start = .error e) : ∃ v, e = .malformedField v := by
  have hkept : ∀ (a : Attachment) (e' : EmissionError),
      (if Descriptor.isOf w MarkerShape.typeConverter.kind a.marker then
        return !Text.startsWith start (← a.marker.converterName)
      else return true) = Except.error e' → ∃ v, e' = .malformedField v := by
    intro a e' ha
    split at ha
    · rcases except_bind_error ha with hn | ⟨name, -, hn⟩
      · exact Converter.converterName_error hn
      · cases hn
    · cases ha
  rcases except_bind_error h with hf | ⟨kept, -, hk⟩
  · rcases except_bind_error hf with hl | ⟨l, -, hr⟩
    · exact filterAuxM_error hkept hl
    · cases hr
  · cases hk

theorem FilterAction.run_error {a : FilterAction} {d : Descriptor} {e : EmissionError}
    (h : a.run w d = .error e) : ∃ v, e = .malformedField v := by
  cases a with
  | removeConverters start =>
    rcases hd : d.removeConverters w start with e' | d'
    · have he : e' = e := by simpa [FilterAction.run, hd, Except.map] using h
      exact he ▸ Descriptor.removeConverters_error w hd
    · simp [FilterAction.run, hd, Except.map] at h
  | _ => cases h

theorem PropertyFilter.runActions_error {l : List FilterAction} {d : Descriptor} {e : EmissionError}
    (h : PropertyFilter.runActions w l d = .error e) : ∃ v, e = .malformedField v := by
  induction l generalizing d with
  | nil => cases h
  | cons a l ih =>
    unfold PropertyFilter.runActions at h
    split at h
    · exact ih h
    · cases h
    next e' ha =>
      cases h
      exact FilterAction.run_error w ha

theorem PropertyFilter.apply_error {f : PropertyFilter} {ds : List Descriptor} {e : EmissionError}
    (h : f.apply w ds = .error e) : ∃ v, e = .malformedField v := by
  rcases except_bind_error h with hm | ⟨os, -, ho⟩
  · exact mapM_error (fun d e he => PropertyFilter.runActions_error w he) hm
  · cases ho

theorem accepted_error {s : Synthesizer} {c : ClassId} {f : PropertyFilter} {e : EmissionError}
    (h : s.accepted c f = .error e) :
    (∃ name, e = .unresolvedName name) ∨ ∃ v, e = .malformedField v := by
  unfold Synthesizer.accepted at h
  split at h
  · cases h
    exact Or.inl ⟨_, rfl⟩
  · exact Or.inr (PropertyFilter.apply_error s.world h)

theorem accepted_textual {s : Synthesizer} {c : ClassId} {f : PropertyFilter} {e : EmissionError}
    (h : s.accepted c f = .error e) : e.IsTextual := by
  rcases accepted_error h with ⟨name, rfl⟩ | ⟨v, rfl⟩
  · trivial
  · trivial

/-! The steps of a derivation that only write. -/

namespace Synthesis

theorem emitting_failsWith {α : Type} {P : EmissionError → Prop} {m : Emitting α}
    (h : FailsWith P m) : FailsWith P (emitting m) := by
  intro d e t hr
  rcases hm : m.run d.emission with ⟨e' | a, u⟩
  · have hrun : (emitting m).run d = (.error e', { d with emission := u }) := by
      simp only [emitting, ExceptT.run] at hm ⊢
      rw [hm]
    rw [hrun] at hr
    cases hr
    exact h hm
  · have hrun : (emitting m).run d = (.ok a, { d with emission := u }) := by
      simp only [emitting, ExceptT.run] at hm ⊢
      rw [hm]
    rw [hrun] at hr
    cases hr

end Synthesis

end ModelContracts
