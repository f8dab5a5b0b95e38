import ModelContracts.Annotation.RuleBook
import ModelContracts.Proofs.Reference.Types

/-!
The phrases of values and of markers. A marker becomes a call of a class, and the arguments may mention
others. Which class the converter of a marker stands for is looked up, so that the phrase of such a
marker is told by what a lookup may find.
-/

namespace ModelContracts

open Ledger

variable {w : World}

/-! Writing while something is emitted. -/

namespace Emitting

theorem recording_tells {α : Type} {Q : Ledger → α → Prop} {r : Recording α} (h : Tells w id Q r) :
    Tells w Emission.ledger Q (recording r) := by
  intro s a t hr
  rcases hl : r.run s.ledger with ⟨e | b, l⟩ <;> simp only [recording, ExceptT.run] at hl hr <;>
    rw [hl] at hr <;> cases hr
  exact h hl

theorem cls_tells (c : ClassId) :
    Tells w Emission.ledger (fun L s => Written w L c.phrase s) (cls w c) :=
  recording_tells (Recording.className_tells c)

theorem type_tells (t : TypeExpr) :
    Tells w Emission.ledger (fun L s => Written w L (w.typePhrase t) s) (type w t) :=
  recording_tells (Recording.text_tells false t)

end Emitting

open Emitting

/-! Values. -/

namespace World

variable (w : World)

def enumPhrase (c : ClassId) (v : Value) : Phrase :=
  match w.memberOf? c v with
  | .ok (.member _ _ label _) => c.memberPhrase label
  | _ => []

/-- A number that is made by its class from a text. -/
def constructedPhrase (c : ClassId) (s : String) : Phrase :=
  Phrase.call c.phrase [.word (Text.quote s)]

def plainPhrase : Value → Phrase
  | .type (.cls c) => c.phrase
  | .bytes [0] | .buffer [0] => [.word (Text.quote "")]
  | .int n | .number _ n => [.word (toString n)]
  | .float x =>
    if x.isFinite then [.word x.text]
    else Phrase.call [.mention (.builtin "float")] [.word (Text.quote x.text)]
  | .complex re im => constructedPhrase ClassId.complex (Number.complexText re im)
  | .decimal d => constructedPhrase ClassId.decimal d.text
  | .fraction f => constructedPhrase ClassId.fraction f.text
  | _ => []

/-- What is written for a value that is declared with a type. -/
def spelledPhrase (declared : Option TypeExpr) (v : Value) : Phrase :=
  match v with
  | .none => [.word "None"]
  | v => match v.text? with
    | some s => [.word (Text.quote s)]
    | none => match v with
      | .bool b => [.word (if b then "True" else "False")]
      | v => match literalEnum? w declared v with
        | some c => w.enumPhrase c v
        | none => plainPhrase v

end World

theorem settled_builtin (L : Ledger) {name : String} (h : name ∈ builtinNames) :
    L.Settled w (.builtin name) := ⟨h, nofun⟩

theorem Written.builtin (L : Ledger) {name : String} (h : name ∈ builtinNames) :
    Written w L [.mention (.builtin name)] name := .mention (settled_builtin L h)

theorem enumText_tells (c : ClassId) (v : Value) :
    Tells w Emission.ledger (fun L s => Written w L (w.enumPhrase c v) s) (enumText w c v) := by
  unfold enumText
  split
  next label _ hmember =>
    simp only [World.enumPhrase, hmember]
    exact (cls_tells c).bind fun _ => .pure fun _ hhead => hhead.member label
  all_goals exact .throw _

theorem constructed_tells (c : ClassId) (s : String) :
    Tells w Emission.ledger (fun L t => Written w L (World.constructedPhrase c s) t)
      (constructed w c s) :=
  (cls_tells c).bind fun _ => .pure fun _ hhead => hhead.call (.word _)

theorem plainLiteral_tells (v : Value) :
    Tells w Emission.ledger (fun L s => Written w L (World.plainPhrase v) s) (plainLiteral w v) := by
  unfold plainLiteral
  split
  case h_1 => exact cls_tells _
  case h_6 x =>
    refine .pure fun L => ?_
    simp only [World.plainPhrase]
    split_ifs
    · exact .word _
    · exact (Written.builtin L (by decide)).call (.word _)
  all_goals first | exact .pure fun _ => .word _ | exact constructed_tells _ _ | exact .throw _

theorem literal_tells (declared : Option TypeExpr) (v : Value) :
    Tells w Emission.ledger (fun L s => Written w L (w.spelledPhrase declared v) s)
      (literal w declared v) := by
  unfold literal
  split
  · exact .pure fun _ => .word _
  next hnone =>
    split
    next s htext =>
      simp only [World.spelledPhrase, htext]
      exact .pure fun _ => .word _
    next htext =>
      split
      · exact .pure fun _ => .word _
      next hbool =>
        split
        next c henum =>
          simp only [World.spelledPhrase, htext, henum]
          exact enumText_tells c v
        next henum =>
          simp only [World.spelledPhrase, htext, henum]
          exact plainLiteral_tells v

/-! Markers. -/

def MarkerShape.callPhrase (shape : MarkerShape) (inner : Phrase) : Phrase :=
  Phrase.call shape.kind.phrase inner

def ClassId.ownCallPhrase (c : ClassId) : Phrase := c.phrase ++ [.word "()"]

def Value.quotedPhrase (v : Value) : Phrase := [.word ((dataText? v).getD "")]

namespace World

variable (w : World)

def refreshPhrase (v : Value) : Phrase :=
  match v with
  | .member _ _ label _ => (World.classOf v).memberPhrase label
  | _ => []

/-- What the stock rule for a kind writes for a marker. What it writes for a converter depends on what
the name of the converter leads to. -/
def stockPhrase (m : Marker) (d : Descriptor) : MarkerShape → Phrase
  | .localizable => MarkerShape.callPhrase .localizable
      (w.spelledPhrase none (m.field "is_localizable"))
  | .category => MarkerShape.callPhrase .category (m.field "category").quotedPhrase
  | .editor => MarkerShape.callPhrase .editor ((m.field "editor_type_name").quotedPhrase ++
      .word ", " :: (m.field "editor_base_type_name").quotedPhrase)
  | .refreshProperties => MarkerShape.callPhrase .refreshProperties
      (refreshPhrase (m.field "refresh"))
  | .localizedDescription | .description =>
    MarkerShape.callPhrase .description (m.field "description").quotedPhrase
  | .defaultValue => MarkerShape.callPhrase .defaultValue
      (w.spelledPhrase (defaultType w m d) (m.field "value"))
  | .modelValueCalculatorWrapper =>
    match m.field "calculator_type" with
    | .none => MarkerShape.callPhrase .modelValueCalculator
        (.word "link_value=" :: w.spelledPhrase none (m.field "link_value"))
    | v => MarkerShape.callPhrase .modelValueCalculator (w.typePhrase v.toType)
  | .modelReadOnly => MarkerShape.callPhrase .modelReadOnly
      (w.typePhrase (m.field "calculator_type").toType)
  | .readOnly => MarkerShape.callPhrase .readOnly (w.spelledPhrase none (m.field "is_read_only"))
  | _ => m.kind.ownCallPhrase

end World

/-- What an emitter may write for a marker; `none` when the marker is passed over. -/
inductive Emitter.Words (w : World) (m : Marker) (d : Descriptor) : Emitter → Option Phrase → Prop
  | stock {shape : MarkerShape} (h : shape ≠ .typeConverter) :
    Words w m d (.stock shape) (some (w.stockPhrase m d shape))
  | converter {c : Option ClassId} {s t : Emission}
    (h : (Converter.resolve w m).run s = (.ok c, t)) :
    Words w m d (.stock .typeConverter) (c.map fun c => MarkerShape.callPhrase .typeConverter c.phrase)
  | fixed (text : Option String) :
    Words w m d (.fixed text) ((text.filter (· ≠ "")).map fun s => [.word s])
  | ownCall : Words w m d .ownCall (some m.kind.ownCallPhrase)

/-- What the rule for a marker may write. -/
def RuleBook.Words (w : World) (b : RuleBook) (d : Descriptor) (m : Marker) (p : Option Phrase) :
    Prop :=
  match b.orStock.find? w m d with
  | none => p = none
  | some r => r.emitter.Words w m d p

/-- The annotations of a property are written for its markers, in order, as the rules say. -/
def RuleBook.Annotates (w : World) (b : RuleBook) (d : Descriptor) (ps : List Phrase) : Prop :=
  ∃ os, List.Forall₂ (b.Words w d) (RuleBook.markersToTranslate w d) os ∧ ps = os.filterMap id

/-- A text that may be left out is written for a phrase that may be. -/
def WrittenOr (w : World) (L : Ledger) (p : Option Phrase) (s : Option String) : Prop :=
  WrittenAll w L p.toList s.toList

theorem quoted_tells (v : Value) :
    Tells w Emission.ledger (fun L s => Written w L v.quotedPhrase s) (quoted v) := by
  unfold quoted
  split
  next s hs =>
    simp only [Value.quotedPhrase, hs, Option.getD_some]
    exact .pure fun _ => .word s
  · exact .throw _

theorem refreshText_tells (v : Value) :
    Tells w Emission.ledger (fun L s => Written w L (World.refreshPhrase v) s)
      (refreshText w v) := by
  refine (cls_tells _).bind fun _ => ?_
  cases v with
  | member owner mixin label raw => exact .pure fun _ hhead => hhead.member label
  | _ => exact .throw _

theorem stockCall_tells (shape : MarkerShape) {args : Emitting String} {p : Phrase}
    (h : Tells w Emission.ledger (fun L s => Written w L p s) args) :
    Tells w Emission.ledger (fun L s => Written w L (shape.callPhrase p) s)
      (stockCall w shape args) :=
  (cls_tells _).bind fun _ => h.bind fun _ => .pure fun _ hinner hhead => hhead.call hinner

/-- Two states of emission with the same ledger. -/
def Emission.SameLedger (s t : Emission) : Prop := t.ledger = s.ledger

instance : IsPreorder Emission Emission.SameLedger where
  refl _ := rfl
  trans _ _ _ h h' := h'.trans h

theorem resolve_keeps (m : Marker) : Keeps Emission.SameLedger (Converter.resolve w m) := by
  unfold Converter.resolve
  split
  · exact .throw _
  · split_ifs
    · exact .pure _
    · refine Keeps.bind ?_ fun _ => .pure _
      unfold Converter.named
      split
      · exact .pure _
      · unfold Converter.locateRemembered
        have hremember (memory : Emission → ConverterMemory) :
            Keeps Emission.SameLedger (modify fun s => { s with memory := memory s } : Emitting Unit) :=
          .modify fun _ => rfl
        refine Keeps.get.bind fun _ => ?_
        split
        · exact (hremember _).bind fun _ => .pure _
        · split
          · exact .throw _
          · exact (hremember _).bind fun _ => .pure _

theorem resolve_tells (m : Marker) :
    Tells w Emission.ledger (fun _ c => ∃ s t, (Converter.resolve w m).run s = (.ok c, t))
      (Converter.resolve w m) :=
  .of_same fun s _ t hr => ⟨(resolve_keeps m).of_run hr, fun _ => ⟨s, t, hr⟩⟩

/-- A phrase that does not end with a mention, so that its text is not empty. -/
def Phrase.Closed (p : Phrase) : Prop := ∃ q s, s ≠ "" ∧ p = q ++ [.word s]

theorem closed_call (shape : MarkerShape) (inner : Phrase) : (shape.callPhrase inner).Closed :=
  ⟨_, ")", by decide, rfl⟩

theorem closed_ownCall (c : ClassId) : c.ownCallPhrase.Closed := ⟨_, "()", by decide, rfl⟩

theorem Written.ne_empty {L : Ledger} {p : Phrase} {s : String} (h : Written w L p s)
    (hp : p.Closed) : s ≠ "" := by
  obtain ⟨q, t, ht, rfl⟩ := hp
  rw [h.text, Phrase.text_append]
  simp [Phrase.text, ht]

theorem Written.kept {L : Ledger} {p : Phrase} {s : String} (h : Written w L p s)
    (hp : p.Closed) : WrittenOr w L (some p) ((some s).filter (· ≠ "")) := by
  have hkept : (some s).filter (· ≠ "") = some s := by simp [h.ne_empty hp]
  rw [hkept]
  exact .cons h .nil

theorem someCall_tells (shape : MarkerShape) {args : Emitting String} {p : Phrase}
    (h : Tells w Emission.ledger (fun L s => Written w L p s) args) :
    Tells w Emission.ledger (fun L o => WrittenOr w L (some (shape.callPhrase p))
      (o.filter (· ≠ ""))) (some <$> stockCall w shape args) :=
  (stockCall_tells shape h).map fun _ _ hs => hs.kept (closed_call shape p)

theorem ownCall_tells (c : ClassId) :
    Tells w Emission.ledger (fun L o => WrittenOr w L (some c.ownCallPhrase)
      (o.filter (· ≠ ""))) (do return some ((← cls w c) ++ "()")) :=
  (cls_tells c).bind fun _ => .pure fun _ hhead =>
    (hhead.append (.word "()")).kept (closed_ownCall c)

theorem stockText_tells (m : Marker) (d : Descriptor) (shape : MarkerShape) :
    Tells w Emission.ledger (fun L o => ∃ p, (Emitter.stock shape).Words w m d p ∧
      WrittenOr w L p (o.filter (· ≠ ""))) (stockText w m d shape) := by
  have call {shape' : MarkerShape} {args : Emitting String} {p : Phrase}
      (h : Tells w Emission.ledger (fun L s => Written w L p s) args)
      (hs : shape ≠ .typeConverter) (hp : w.stockPhrase m d shape = shape'.callPhrase p) :
      Tells w Emission.ledger (fun L o => ∃ p, (Emitter.stock shape).Words w m d p ∧
        WrittenOr w L p (o.filter (· ≠ ""))) (some <$> stockCall w shape' args) :=
    (someCall_tells shape' h).mono fun L o ho => ⟨_, hp ▸ .stock hs, ho⟩
  unfold stockText
  split
  · exact call (literal_tells _ _) (by decide) rfl
  · exact call (quoted_tells _) (by decide) rfl
  · exact call ((quoted_tells _).bind fun _ => (quoted_tells _).bind fun _ =>
      .pure fun _ ht hs => by
        rw [String.append_assoc]
        exact hs.append ((Written.word ", ").append ht)) (by decide) rfl
  · exact call (refreshText_tells _) (by decide) rfl
  · refine (resolve_tells m).bind fun c => ?_
    cases c with
    | none =>
      refine .pure fun L hc => ?_
      obtain ⟨s, t, hr⟩ := hc
      exact ⟨_, .converter hr, .nil⟩
    | some c =>
      refine (someCall_tells .typeConverter (cls_tells c)).mono fun L o ho hc => ?_
      obtain ⟨s, t, hr⟩ := hc
      exact ⟨_, .converter hr, ho⟩
  · exact call (quoted_tells _) (by decide) rfl
  · exact call (quoted_tells _) (by decide) rfl
  · exact call (literal_tells _ _) (by decide) rfl
  · split
    next hfield =>
      refine call ((literal_tells _ _).bind fun _ => .pure fun _ hs => (Written.word _).append hs)
        (by decide) ?_
      simp only [World.stockPhrase, hfield]
      rfl
    next hfield =>
      refine call (type_tells _) (by decide) ?_
      simp only [World.stockPhrase]
  · exact call (type_tells _) (by decide) rfl
  · exact call (literal_tells _ _) (by decide) rfl
  next hconverter _ _ _ _ _ _ =>
    have hphrase : w.stockPhrase m d shape = m.kind.ownCallPhrase := by
      unfold World.stockPhrase
      split <;> first | rfl | contradiction
    exact (ownCall_tells m.kind).mono fun L o ho => ⟨_, hphrase ▸ .stock hconverter, ho⟩

theorem emitter_tells (m : Marker) (d : Descriptor) (e : Emitter) :
    Tells w Emission.ledger (fun L o => ∃ p, e.Words w m d p ∧ WrittenOr w L p (o.filter (· ≠ "")))
      (e.text w m d) := by
  cases e with
  | stock shape => exact stockText_tells m d shape
  | fixed text =>
    refine .pure fun L => ⟨_, .fixed text, ?_⟩
    cases text.filter (· ≠ "") with
    | none => exact .nil
    | some s => exact .cons (.word s) .nil
  | ownCall => exact (ownCall_tells m.kind).mono fun L o ho => ⟨_, .ownCall, ho⟩

theorem translate_tells (b : RuleBook) (d : Descriptor) (m : Marker) :
    Tells w Emission.ledger (fun L o => ∃ p, b.Words w d m p ∧ WrittenOr w L p o)
      (b.translate w m d) := by
  unfold RuleBook.translate
  split
  next hrule =>
    simp only [RuleBook.Words, hrule]
    exact .pure fun _ => ⟨none, rfl, .nil⟩
  next r hrule =>
    simp only [RuleBook.Words, hrule]
    exact (emitter_tells m d r.emitter).bind fun _ => .pure fun _ h => h

theorem filterMap_id_cons {α : Type} (o : Option α) (os : List (Option α)) :
    (o :: os).filterMap id = o.toList ++ os.filterMap id := by cases o <;> rfl

/-- The annotations of a property are written for its markers as the rules say. -/
theorem translateAll_tells (b : RuleBook) (d : Descriptor) :
    Tells w Emission.ledger (fun L ss => ∃ ps, b.Annotates w d ps ∧ WrittenAll w L ps ss)
      (b.translateAll w d) := by
  refine (Tells.mapM (fun m => translate_tells b d m) _).bind fun os => .pure fun L hos => ?_
  have hboth : ∀ {ms : List Marker} {os : List (Option String)},
      List.Forall₂ (fun m o => ∃ p, b.Words w d m p ∧ WrittenOr w L p o) ms os →
        ∃ ps, List.Forall₂ (b.Words w d) ms ps ∧
          WrittenAll w L (ps.filterMap id) (os.filterMap id) := by
    intro ms os h
    induction h with
    | nil => exact ⟨[], .nil, .nil⟩
    | cons hm _ ih =>
      obtain ⟨p, hp, hw⟩ := hm
      obtain ⟨ps, hps, hrest⟩ := ih
      refine ⟨p :: ps, .cons hp hps, ?_⟩
      rw [filterMap_id_cons, filterMap_id_cons]
      exact hw.append hrest
  obtain ⟨ps, hps, hw⟩ := hboth hos
  exact ⟨_, ⟨ps, hps, rfl⟩, hw⟩

end ModelContracts
