import Mathlib.Tactic.SplitIfs
import ModelContracts.Contract.Synthesis
import ModelContracts.Proofs.Running

/-!
States from which the same contracts are derived. Deriving goes by the names that were recorded, by the types
that were formed and by what looking up converters tells. So where all three agree, the contracts are the
same, and so are the names and types that are recorded afterwards. The log is written and never read.
-/

namespace ModelContracts

/-- A relation of states that deriving contracts in a world keeps and does not tell apart. -/
structure Emission.Indistinct (w : World) (R : Emission → Emission → Prop) : Prop where
  ledger : ∀ {e e'}, R e e' → e'.ledger = e.ledger
  formed : ∀ {e e'}, R e e' → e'.formed = e.formed
  record : ∀ {e e'} l, R e e' → R { e with ledger := l } { e' with ledger := l }
  form : ∀ {e e'} m, R e e' → R { e with formed := m } { e' with formed := m }
  note : ∀ {e e'} r, R e e' → R { e with log := e.log ++ [r] } { e' with log := e'.log ++ [r] }
  locate : ∀ name, Blind R (Converter.locateRemembered w name)

/-- Drafts of the same contracts whose emissions are related. -/
structure Draft.Related (R : Emission → Emission → Prop) (d d' : Draft) : Prop where
  emission : R d.emission d'.emission
  contracts : d'.contracts = d.contracts
  arena : d'.arena = d.arena
  names : d'.names = d.names

section

variable {w : World} {R : Emission → Emission → Prop} (hR : Emission.Indistinct w R)

include hR

namespace Emitting

theorem recording_blind {α : Type} (r : Recording α) : Blind R (recording r) := by
  intro e e' h
  simp only [recording, ExceptT.run, hR.ledger h]
  rcases r e.ledger with ⟨f | a, l⟩
  · exact ⟨rfl, hR.record l h⟩
  · exact ⟨rfl, hR.record l h⟩

theorem type_blind (t : TypeExpr) : Blind R (type w t) := recording_blind hR _

theorem cls_blind (c : ClassId) : Blind R (cls w c) := recording_blind hR _

theorem nullable_blind (t : TypeExpr) : Blind R (nullable t) := by
  intro e e' h
  simp only [nullable, ExceptT.run, hR.formed h]
  rcases e.formed.nullable? t with f | ⟨u, formed⟩
  · exact ⟨rfl, h⟩
  · exact ⟨rfl, hR.form formed h⟩

theorem log_blind (r : LogRecord) : Blind R (log r) := Blind.modify fun _ _ h => hR.note r h

theorem reserve_blind (name : String) : Blind R (reserve name) := by
  refine Blind.get_bind (fun e e' h => by rw [hR.ledger h]) fun e => ?_
  have hreserved : Blind R (modify fun e : Emission =>
      { e with ledger := e.ledger.reserve name } : Emitting PUnit) := by
    refine Blind.modify fun e e' h => ?_
    rw [hR.ledger h]
    exact hR.record _ h
  split_ifs
  · exact (log_blind hR _).bind fun _ => hreserved
  · exact hreserved

end Emitting

open Emitting

theorem enumText_blind (c : ClassId) (v : Value) : Blind R (enumText w c v) := by
  unfold enumText memberText
  split
  · exact (cls_blind hR _).bind fun _ => .pure _
  · exact .throw _
  · exact .throw _
  · exact .throw _

theorem plainLiteral_blind (v : Value) : Blind R (plainLiteral w v) := by
  unfold plainLiteral constructed
  split
  · exact cls_blind hR _
  all_goals first | exact .pure _ | exact .throw _ | exact (cls_blind hR _).bind fun _ => .pure _

theorem literal_blind (declared : Option TypeExpr) (v : Value) : Blind R (literal w declared v) := by
  unfold literal
  split
  · exact .pure _
  · split
    · exact .pure _
    · split
      · exact .pure _
      · split
        · exact enumText_blind hR _ _
        · exact plainLiteral_blind hR _

omit hR in
theorem quoted_blind (v : Value) : Blind R (quoted v) := by
  unfold quoted
  split
  · exact .pure _
  · exact .throw _

theorem refreshText_blind (v : Value) : Blind R (refreshText w v) := by
  refine (cls_blind hR _).bind fun _ => ?_
  split
  · exact .pure _
  · exact .throw _

theorem resolve_blind (m : Marker) : Blind R (Converter.resolve w m) := by
  unfold Converter.resolve
  split
  · exact .throw _
  · split_ifs
    · exact .pure _
    · refine Blind.bind ?_ fun _ => .pure _
      unfold Converter.named
      split
      · exact .pure _
      · exact hR.locate _

theorem stockText_blind (m : Marker) (d : Descriptor) (shape : MarkerShape) :
    Blind R (stockText w m d shape) := by
  have call {shape : MarkerShape} {args : Emitting String} (h : Blind R args) :
      Blind R (some <$> stockCall w shape args) :=
    ((cls_blind hR _).bind fun _ => h.bind fun _ => .pure _).map
  have field (v : Value) : Blind R (quoted v) := quoted_blind v
  unfold stockText
  split
  · exact call (literal_blind hR _ _)
  · exact call (field _)
  · exact call ((field _).bind fun _ => (field _).bind fun _ => .pure _)
  · exact call (refreshText_blind hR _)
  · refine (resolve_blind hR m).bind fun c => ?_
    cases c with
    | none => exact .pure _
    | some c => exact call (cls_blind hR c)
  · exact call (field _)
  · exact call (field _)
  · exact call (literal_blind hR _ _)
  · split
    · exact call ((literal_blind hR _ _).bind fun _ => .pure _)
    · exact call (type_blind hR _)
  · exact call (type_blind hR _)
  · exact call (literal_blind hR _ _)
  · exact (cls_blind hR _).bind fun _ => .pure _

theorem emitter_blind (m : Marker) (d : Descriptor) (e : Emitter) : Blind R (e.text w m d) := by
  cases e with
  | stock shape => exact stockText_blind hR m d shape
  | fixed text => exact .pure _
  | ownCall => exact (cls_blind hR _).bind fun _ => .pure _

theorem translateAll_blind (b : RuleBook) (d : Descriptor) : Blind R (b.translateAll w d) := by
  refine (Blind.mapM (fun m => ?_) _).bind fun _ => .pure _
  unfold RuleBook.translate
  split
  · exact .pure _
  · exact (emitter_blind hR m d _).bind fun _ => .pure _

end

theorem emitting_blind {R : Emission → Emission → Prop} {α : Type} {m : Emitting α} (h : Blind R m) :
    Blind (Draft.Related R) (Synthesis.emitting m) := by
  intro d d' hd
  obtain ⟨hresult, hstate⟩ := h d.emission d'.emission hd.emission
  exact ⟨hresult, hstate, hd.contracts, hd.arena, hd.names⟩

namespace Synthesizer

variable {s : Synthesizer} {R : Emission → Emission → Prop} (hR : Emission.Indistinct s.world R)

theorem claimName_blind (name : String) (c : ClassId) : Blind (Draft.Related R) (claimName name c) := by
  have hrival {d d' : Draft} (h : Draft.Related R d d') : d'.rival? name c = d.rival? name c := by
    rw [Draft.rival?, h.names, Draft.rival?]
  refine Blind.get_bind (fun d d' h => by rw [hrival h]) fun d => ?_
  split
  · exact .throw _
  · exact .modify fun _ _ h => ⟨h.emission, h.contracts, h.arena, by rw [h.names]⟩

include hR

theorem cls_blind (c : ClassId) : Blind (Draft.Related R) (s.cls c) :=
  emitting_blind (Emitting.cls_blind hR c)

theorem type_blind (t : TypeExpr) : Blind (Draft.Related R) (s.type t) :=
  emitting_blind (Emitting.type_blind hR t)

theorem log_blind (r : LogRecord) : Blind (Draft.Related R) (Synthesis.log r) :=
  emitting_blind (Emitting.log_blind hR r)

theorem headerLines_blind (c : ClassId) (isAbstract : Bool) :
    Blind (Draft.Related R) (s.headerLines c isAbstract) := by
  refine (cls_blind hR _).bind fun _ => ?_
  split_ifs
  · exact (cls_blind hR _).bind fun _ => .pure _
  · exact .pure _

theorem openContract_blind (c : Component) (around : Option String) :
    Blind (Draft.Related R) (s.openContract c around) := by
  refine (claimName_blind _ _).bind fun _ => ?_
  refine (emitting_blind (Emitting.reserve_blind hR _)).bind fun _ => ?_
  refine (cls_blind hR _).bind fun _ => (headerLines_blind hR _ _).bind fun header => ?_
  refine (cls_blind hR _).bind fun base => ?_
  refine Blind.get_bind (fun d d' h => by rw [h.contracts]) fun d => ?_
  refine Blind.bind (.modify fun d d' h => ?_) fun _ => (log_blind hR _).bind fun _ => .pure _
  exact ⟨h.emission, by rw [h.contracts], by rw [h.arena], h.names⟩

theorem memberType_blind (p : Descriptor) : Blind (Draft.Related R) (s.memberType p) := by
  have hcontract {d d' : Draft} (h : Draft.Related R d d') (c : ClassId) :
      d'.contract? c = d.contract? c := by
    rw [Draft.contract?, h.arena, h.contracts, Draft.contract?]
  have hvalue : Blind (Draft.Related R) (s.valueText p.type) := by
    unfold valueText
    split_ifs
    · exact type_blind hR _
    · exact (emitting_blind (Emitting.nullable_blind hR _)).bind fun _ => type_blind hR _
  unfold memberType
  split
  · exact type_blind hR _
  · split
    next c _ =>
      refine Blind.get_bind (fun d d' h => by rw [hcontract h]) fun d => ?_
      split
      · exact .pure _
      · exact type_blind hR _
    · split
      · exact hvalue
      · exact type_blind hR _

theorem member_blind (p : Descriptor) : Blind (Draft.Related R) (s.member p) :=
  (memberType_blind hR p).bind fun _ =>
    (emitting_blind (translateAll_blind hR s.book p)).bind fun _ => .pure _

section

variable {create : Component → Option String → Synthesis Nat}
  (hcreate : ∀ c around, Blind (Draft.Related R) (create c around))

omit hR

include hcreate

theorem createNested_blind (c : Component) (name : String) (p : Descriptor) :
    Blind (Draft.Related R) (s.createNested create c name p) := by
  unfold createNested
  split
  next nested _ =>
    refine Blind.get_bind (fun d d' h => by rw [Draft.has, h.arena, Draft.has]) fun d => ?_
    split_ifs
    · exact (hcreate _ _).bind fun _ => .pure _
    · exact .pure _
  · exact .pure _

include hR

theorem addMembers_blind (c : Component) (place : Nat) (name : String) (ps : List Descriptor)
    (seen : List String) :
    Blind (Draft.Related R) (s.addMembers create c place name ps seen) := by
  induction ps generalizing seen with
  | nil => exact .pure _
  | cons p rest ih =>
    unfold addMembers
    split_ifs
    · exact ih seen
    · refine Blind.bind ?_ fun _ => ih _
      refine (createNested_blind hcreate c name p).bind fun _ => (member_blind hR p).bind fun m => ?_
      exact .modify fun d d' h => ⟨h.emission, by rw [Draft.addMember, h.contracts]; rfl, h.arena,
        h.names⟩

end

theorem create_blind (fuel : Nat) (c : Component) (around : Option String) :
    Blind (Draft.Related R) (s.create fuel c around) := by
  induction fuel generalizing c around with
  | zero => exact .throw _
  | succ fuel ih =>
    refine (openContract_blind hR c around).bind fun (place, name) => ?_
    dsimp only
    split
    · exact .throw _
    · exact (addMembers_blind hR ih c place name _ _).bind fun _ => .pure _

theorem addComponent_blind (c : Component) : Blind (Draft.Related R) (s.addComponent c) := by
  refine (Blind.forM (fun t => (type_blind hR t).map) _).bind fun _ => ?_
  refine Blind.get_bind (fun d d' h => by rw [Draft.has, h.arena, Draft.has]) fun d => ?_
  split_ifs
  · exact log_blind hR _
  · exact (create_blind hR _ c none).bind fun _ => .pure _

/-- The same contracts are derived from states that are not told apart. -/
theorem synthesize_blind (components : List Component) :
    Blind (Draft.Related R) (s.synthesize components) := by
  refine (Blind.forM (addComponent_blind hR) components).bind fun _ => ?_
  refine (emitting_blind (Emitting.recording_blind hR _)).bind fun annotated => ?_
  exact Blind.get_bind (fun d d' h => by rw [h.contracts, hR.ledger h.emission]) fun d => .pure _

end Synthesizer

/-! The log. -/

/-- The same but for the log. -/
structure Emission.Quiet (e e' : Emission) : Prop where
  ledger : e'.ledger = e.ledger
  memory : e'.memory = e.memory
  formed : e'.formed = e.formed

theorem Emission.quiet_indistinct (w : World) : Emission.Indistinct w Quiet where
  ledger h := h.ledger
  formed h := h.formed
  record _ h := ⟨rfl, h.memory, h.formed⟩
  form _ h := ⟨h.ledger, h.memory, rfl⟩
  note _ h := ⟨h.ledger, h.memory, h.formed⟩
  locate name := by
    have hremember (c : Option ClassId) : Blind Quiet (do
        modify fun e : Emission => { e with memory := Converter.remember e.memory name c }
        return c : Emitting (Option ClassId)) :=
      (Blind.modify fun _ _ h => ⟨h.ledger, by rw [h.memory], h.formed⟩).bind fun _ => .pure _
    refine Blind.get_bind (fun e e' h => by rw [h.memory]) fun e => ?_
    split
    · exact hremember _
    · split
      · exact .throw _
      · exact hremember _

end ModelContracts
