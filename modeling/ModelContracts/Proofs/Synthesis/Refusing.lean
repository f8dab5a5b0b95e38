import ModelContracts.Proofs.Synthesis.Depth

/-!
What deriving contracts fails with when the annotations can be told and the markers hold what is written of
them: a value has no literal, two classes share a name, or a type expression has no text. The last is how
expressions are refused that are no types of values.
-/

namespace ModelContracts

/-- Expressions that are refused where a type is written. -/
def TypeExpr.Textless : TypeExpr → Prop
  | .qualifier _ | .typeVar _ | .ellipsis | .params _ | .value _ => True
  | _ => False

namespace EmissionError

/-- An error that is declared for the derivation of contracts. -/
def Declared : EmissionError → Prop
  | .unsupported _ | .nameConflict .. => True
  | _ => False

instance : DecidablePred Declared
  | .unsupported _ | .nameConflict .. => .isTrue trivial
  | .unrenderable _ | .form _ | .lookup _ | .malformedField _ | .unquotable _ | .converterImport _
  | .unresolvedName _ | .tooDeep => .isFalse id

/-- A declared error, or the refusal of an expression. -/
def Regular (e : EmissionError) : Prop := e.Declared ∨ ∃ t : TypeExpr, t.Textless ∧ e = .unrenderable t

end EmissionError

open EmissionError

/-! Types. -/

namespace Recording

/-- Only expressions without a text are refused. -/
def Refuses {α : Type} (m : Recording α) : Prop := FailsWith (fun e => e.type.Textless) m

variable (w : World)

theorem of_refuses (f : Ledger → String × Ledger) : Refuses (Recording.of f) := .of_ok fun _ => ⟨_, _, rfl⟩

theorem className_refuses (c : ClassId) : Refuses (className w c) := by
  unfold className
  split_ifs
  · exact .pure _
  · exact of_refuses _
  · exact of_refuses _

theorem literals_refuses (vs : List Value) : Refuses (literals w vs) := by
  induction vs with
  | nil => exact .pure _
  | cons v vs ih =>
    have hrest (text : String) : Refuses (do return text :: (← literals w vs)) := ih.bind fun _ => .pure _
    unfold literals
    split
    · exact (className_refuses w _).bind fun _ => (FailsWith.pure _).bind hrest
    · exact (FailsWith.pure _).bind hrest

mutual

theorem text_refuses (inside : Bool) : (t : TypeExpr) → Refuses (text w inside t)
  | .cls c => className_refuses w c
  | .forward _ => .pure _
  | .forwardRef _ => .pure _
  | .annotated base _ => text_refuses false base
  | .union _ ts => by
    unfold text
    split_ifs
    · exact (of_refuses _).bind fun _ => (others_refuses ts).bind fun _ => .pure _
    · exact (of_refuses _).bind fun _ => (texts_refuses false ts).bind fun _ => .pure _
  | .literal vs => (literals_refuses w vs).bind fun _ => (of_refuses _).bind fun _ => .pure _
  | .generic _ origin args => (className_refuses w origin).bind fun _ =>
      (texts_refuses true args).bind fun _ => .pure _
  | .qualified _ t => (of_refuses _).bind fun _ => (text_refuses true t).bind fun _ => .pure _
  | .qualifier _ => .throw trivial
  | .typeVar _ => .throw trivial
  | .ellipsis => by
    unfold text
    split_ifs
    · exact .pure _
    · exact .throw trivial
  | .params ts => by
    unfold text
    split_ifs
    · exact (texts_refuses true ts).bind fun _ => .pure _
    · exact .throw trivial
  | .value v => by
    unfold text
    split_ifs
    · exact listed_refuses v
    · exact .throw trivial
termination_by structural t => t

theorem texts_refuses (inside : Bool) : (ts : List TypeExpr) → Refuses (texts w inside ts)
  | [] => .pure _
  | t :: ts => (text_refuses inside t).bind fun _ => (texts_refuses inside ts).bind fun _ => .pure _
termination_by structural ts => ts

theorem others_refuses : (ts : List TypeExpr) → Refuses (others w ts)
  | [] => .pure _
  | t :: ts => by
    unfold others
    split_ifs
    · exact others_refuses ts
    · exact (text_refuses false t).bind fun _ => (others_refuses ts).bind fun _ => .pure _
termination_by structural ts => ts

theorem listed_refuses : (v : Value) → Refuses (listed w v)
  | .list items => (listedAll_refuses items).bind fun _ => .pure _
  | .tuple items => (listedAll_refuses items).bind fun _ => .pure _
  | .type t => text_refuses true t
  | .text _ => .pure _
  | .none => .pure _
  | .bool _ => .throw trivial
  | .int _ => .throw trivial
  | .float _ => .throw trivial
  | .complex .. => .throw trivial
  | .decimal _ => .throw trivial
  | .fraction _ => .throw trivial
  | .bytes _ => .throw trivial
  | .buffer _ => .throw trivial
  | .member .. => .throw trivial
  | .dict _ => .throw trivial
  | .date .. => .throw trivial
  | .moment .. => .throw trivial
  | .number .. => .throw trivial
  | .marker .. => .throw trivial
termination_by structural v => v

theorem listedAll_refuses : (vs : List Value) → Refuses (listedAll w vs)
  | [] => .pure _
  | v :: vs => (listed_refuses v).bind fun _ => (listedAll_refuses vs).bind fun _ => .pure _
termination_by structural vs => vs

end

end Recording

namespace Emitting

variable (w : World)

theorem cls_failsWith (P : EmissionError → Prop) (c : ClassId) : FailsWith P (cls w c) :=
  .of_ok (cls_succeeds w c)

theorem type_regular (t : TypeExpr) : FailsWith Regular (type w t) :=
  recording_failsWith fun _ _ _ h => Or.inr ⟨_, Recording.text_refuses w false t h, rfl⟩

/-- A type whose values are copied can be made optional. -/
theorem refused_of_valueLike {t : TypeExpr} (h : w.valueLike t = true) : t.refused = false := by
  unfold World.valueLike at h
  cases t with
  | annotated base notes =>
    dsimp only at h
    unfold World.valueLike at h
    cases base <;> first | rfl | cases h
  | _ => first | rfl | cases h

theorem nullable_failsWith (P : EmissionError → Prop) {t : TypeExpr} (h : w.valueLike t = true) :
    FailsWith P (nullable t) := by
  have hformed : ∃ u, t.nullable? = .ok u := by
    unfold TypeExpr.nullable? TypeExpr.optional? TypeExpr.asArgument
    rw [refused_of_valueLike w h]
    split_ifs
    · exact ⟨t, rfl⟩
    · contradiction
    · exact ⟨_, rfl⟩
  have hnullable (m : FormMemory) : ∃ u m', m.nullable? t = .ok (u, m') := by
    obtain ⟨u, hu⟩ := hformed
    unfold FormMemory.nullable?
    rw [hu]
    split_ifs
    · exact ⟨t, m, rfl⟩
    · split
      · exact ⟨_, _, rfl⟩
      · exact ⟨u, _, rfl⟩
  refine .of_ok fun s => ?_
  obtain ⟨u, m', hu⟩ := hnullable s.formed
  refine ⟨u, { s with formed := m' }, ?_⟩
  simp only [nullable, ExceptT.run, hu]

end Emitting

open Emitting

/-! Marker fields. -/

variable (w : World)

/-- The value can be looked up where it stands for the member of an enumeration: it is found, or it is told
that no member has it. -/
def World.Settles (declared : Option TypeExpr) (v : Value) : Prop :=
  ∀ c e, literalEnum? w declared v = some c → w.memberOf? c v = .error e → ∃ u, e = .unknown u

/-- The value can be written as data. -/
def Value.Quotable (v : Value) : Prop := ∃ text, dataText? v = some text

def Value.IsMember (v : Value) : Prop := ∃ owner mixin label raw, v = .member owner mixin label raw

/-- The fields of the marker hold what the stock rule for a kind writes. A converter is a class, or is named
by a text that does not start with a dot. -/
def Marker.Fits (m : Marker) (d : Descriptor) : MarkerShape → Prop
  | .localizable => w.Settles none (m.field "is_localizable")
  | .category => (m.field "category").Quotable
  | .editor => (m.field "editor_type_name").Quotable ∧ (m.field "editor_base_type_name").Quotable
  | .refreshProperties => (m.field "refresh").IsMember
  | .typeConverter => ∃ name, m.converterName = .ok name ∧ Text.startsWith "." name = false
  | .localizedDescription | .description => (m.field "description").Quotable
  | .defaultValue => w.Settles (defaultType w m d) (m.field "value")
  | .modelValueCalculatorWrapper => w.Settles none (m.field "link_value")
  | .readOnly => w.Settles none (m.field "is_read_only")
  | _ => True

def Emitter.Fits (m : Marker) (d : Descriptor) : Emitter → Prop
  | .stock shape => m.Fits w d shape
  | _ => True

/-- The markers of a property hold what the rules write that are found for them. -/
def RuleBook.Fits (b : RuleBook) (d : Descriptor) : Prop :=
  ∀ m ∈ RuleBook.markersToTranslate w d, ∀ r, b.orStock.find? w m d = some r → r.emitter.Fits w m d

variable {w}

theorem enumText_regular {c : ClassId} {v : Value}
    (h : ∀ e, w.memberOf? c v = .error e → ∃ u, e = .unknown u) : FailsWith Regular (enumText w c v) := by
  unfold enumText
  split
  · exact (cls_failsWith w _ _).bind fun _ => .pure _
  · exact .throw (Or.inl trivial)
  · exact .throw (Or.inl trivial)
  next e hunknown he =>
    obtain ⟨u, rfl⟩ := h e he
    exact (hunknown u rfl).elim

theorem plainLiteral_regular (v : Value) : FailsWith Regular (plainLiteral w v) := by
  unfold plainLiteral constructed
  split
  · exact cls_failsWith w _ _
  all_goals
    first
      | exact .pure _
      | exact .throw (Or.inl trivial)
      | exact (cls_failsWith w _ _).bind fun _ => .pure _

theorem literal_regular {declared : Option TypeExpr} {v : Value} (h : w.Settles declared v) :
    FailsWith Regular (literal w declared v) := by
  unfold literal
  split
  · exact .pure _
  · split
    · exact .pure _
    · split
      · exact .pure _
      · split
        next c hc => exact enumText_regular fun e he => h c e hc he
        · exact plainLiteral_regular _

theorem quoted_failsWith {P : EmissionError → Prop} {v : Value} (h : v.Quotable) :
    FailsWith P (quoted v) := by
  obtain ⟨text, htext⟩ := h
  unfold quoted
  rw [htext]
  exact .pure _

theorem refreshText_failsWith {P : EmissionError → Prop} {v : Value} (h : v.IsMember) :
    FailsWith P (refreshText w v) := by
  obtain ⟨owner, mixin, label, raw, rfl⟩ := h
  exact (cls_failsWith w _ _).bind fun _ => .pure _

namespace Converter

/-- An import fails over a name that is empty or starts with a dot; other modules are missing at most. -/
theorem import?_error {name : String} {e : ImportError} (h : w.import? name = .error e) :
    (∃ missing around, e = .missing missing around) ∨ name.toList = [] ∨
      Text.startsWith "." name = true := by
  unfold World.import? at h
  split_ifs at h with hempty hdot
  · exact Or.inr (Or.inl (by simpa using hempty))
  · exact Or.inr (Or.inr hdot)
  · split at h
    · cases h
    · cases h
      exact Or.inl ⟨_, _, rfl⟩

theorem locateFrom_error {pieces : List String} {count : Nat} {e : ImportError}
    (h : locateFrom w pieces count = .error e) :
    ∃ k, 0 < k ∧ ((String.intercalate "." (pieces.take k)).toList = [] ∨
      Text.startsWith "." (String.intercalate "." (pieces.take k)) = true) := by
  induction count with
  | zero => cases h
  | succ count ih =>
    unfold locateFrom at h
    split at h
    · cases h
    · exact ih h
    next e' hmissing he =>
      refine ⟨count + 1, Nat.succ_pos count, ?_⟩
      rcases import?_error he with ⟨missing, around, rfl⟩ | hname
      · exact (hmissing missing around rfl).elim
      · exact hname

/-- Every start of a name that does not begin with a dot begins like the name. -/
theorem toList_start {name : String} {k : Nat} (hk : 0 < k) {c : Char} {rest : List Char}
    (hname : name.toList = c :: rest) (hc : c ≠ '.') :
    ∃ more, (String.intercalate "." ((Text.split '.' name).take k)).toList = c :: more := by
  obtain ⟨p, ps, hsplit⟩ : ∃ p ps, Text.split '.' name = String.ofList (c :: p) :: ps := by
    unfold Text.split
    rw [hname, Text.pieces, if_neg hc]
    split
    · exact ⟨_, _, rfl⟩
    · exact ⟨_, _, rfl⟩
  obtain ⟨n, rfl⟩ := Nat.exists_eq_succ_of_ne_zero (Nat.ne_of_gt hk)
  rw [hsplit, List.take_succ_cons]
  rcases ps.take n with _ | ⟨q, qs⟩
  · exact ⟨p, by simp⟩
  · rw [String.intercalate_cons_cons, String.toList_append, String.toList_append, String.toList_ofList]
    exact ⟨_, rfl⟩

/-- Only a name that starts with a dot cannot be looked up. -/
theorem locate_error {name : String} {e : ImportError} (h : locate w name = .error e) :
    Text.startsWith "." name = true := by
  rcases hname : name.toList with _ | ⟨c, rest⟩
  · have hsplit : Text.split '.' name = [""] := by simp [Text.split, hname, Text.pieces]
    unfold locate at h
    rw [hsplit] at h
    cases h
  · by_cases hc : c = '.'
    · simp [Text.startsWith, hname, hc]
    · obtain ⟨k, hk, hstart⟩ := locateFrom_error h
      obtain ⟨more, hmore⟩ := toList_start hk hname hc
      rw [Text.startsWith, hmore] at hstart
      simp [Ne.symm hc] at hstart

theorem resolve_failsWith {P : EmissionError → Prop} {m : Marker} {name : String}
    (hname : m.converterName = .ok name) (hdot : Text.startsWith "." name = false) :
    FailsWith P (resolve w m) := by
  have hlocated : FailsWith P (locateRemembered w name) := by
    unfold locateRemembered
    refine FailsWith.get.bind fun _ => ?_
    split
    · exact (FailsWith.modify _).bind fun _ => .pure _
    · split
      next e he =>
        rw [locate_error he] at hdot
        cases hdot
      · exact (FailsWith.modify _).bind fun _ => .pure _
  unfold resolve
  rw [hname]
  dsimp only
  split_ifs
  · exact .pure _
  · refine FailsWith.bind ?_ fun _ => .pure _
    unfold named
    split
    · exact .pure _
    · exact hlocated

end Converter

theorem stockText_regular {m : Marker} {d : Descriptor} {shape : MarkerShape} (h : m.Fits w d shape) :
    FailsWith Regular (stockText w m d shape) := by
  have call {shape : MarkerShape} {args : Emitting String} (hargs : FailsWith Regular args) :
      FailsWith Regular (some <$> stockCall w shape args) := by
    refine FailsWith.map ?_
    exact (cls_failsWith w _ _).bind fun _ => hargs.bind fun _ => .pure _
  unfold stockText
  split
  case h_1 => exact call (literal_regular h)
  case h_2 => exact call (quoted_failsWith h)
  case h_3 =>
    obtain ⟨hname, hbase⟩ := h
    exact call ((quoted_failsWith hname).bind fun _ => (quoted_failsWith hbase).bind fun _ => .pure _)
  case h_4 => exact call (refreshText_failsWith h)
  case h_5 =>
    obtain ⟨name, hname, hdot⟩ := h
    refine (Converter.resolve_failsWith hname hdot).bind fun c => ?_
    cases c with
    | none => exact .pure _
    | some c => exact call (cls_failsWith w _ c)
  case h_6 => exact call (quoted_failsWith h)
  case h_7 => exact call (quoted_failsWith h)
  case h_8 => exact call (literal_regular h)
  case h_9 =>
    split
    · exact call ((literal_regular h).bind fun _ => .pure _)
    · exact call (type_regular w _)
  case h_10 => exact call (type_regular w _)
  case h_11 => exact call (literal_regular h)
  case h_12 => exact (cls_failsWith w _ _).bind fun _ => .pure _

theorem emitter_regular {m : Marker} {d : Descriptor} {e : Emitter} (h : e.Fits w m d) :
    FailsWith Regular (e.text w m d) := by
  cases e with
  | stock shape => exact stockText_regular h
  | fixed text => exact .pure _
  | ownCall => exact (cls_failsWith w _ _).bind fun _ => .pure _

theorem translateAll_regular {b : RuleBook} {d : Descriptor} (h : b.Fits w d) :
    FailsWith Regular (b.translateAll w d) := by
  refine (FailsWith.mapM_of_mem fun m hm => ?_).bind fun _ => .pure _
  unfold RuleBook.translate
  split
  · exact .pure _
  next r hr => exact (emitter_regular (h m hm r hr)).bind fun _ => .pure _

/-! Contracts. -/

theorem PropertyFilter.apply_none (w : World) (ds : List Descriptor) : apply w none ds = .ok ds := by
  have hall : ds.mapM (PropertyFilter.run w none) = .ok (ds.map some) := by
    induction ds with
    | nil => rfl
    | cons d ds ih =>
      rw [List.mapM_cons, ih]
      rfl
  unfold PropertyFilter.apply
  rw [hall]
  simp [bind, Except.bind, pure, Except.pure]

namespace Synthesizer

variable {s : Synthesizer} {filter : PropertyFilter}

variable (s) in
/-- The properties of every class can be told, as the names in annotations lead to classes; the filter judges
them all; and of those that it accepts the markers can be written. -/
structure Legible (filter : PropertyFilter) : Prop where
  told : ∀ c, ∃ ds, s.world.candidates? c = .ok ds
  judged : ∀ c ds, s.world.candidates? c = .ok ds → ∃ kept, filter.apply s.world ds = .ok kept
  fits : ∀ c kept, s.accepted c filter = .ok kept → ∀ d ∈ kept, s.book.Fits s.world d

theorem Legible.accepted (h : s.Legible filter) (c : ClassId) :
    ∃ kept, s.accepted c filter = .ok kept ∧ ∀ d ∈ kept, s.book.Fits s.world d := by
  obtain ⟨ds, hds⟩ := h.told c
  obtain ⟨kept, hkept⟩ := h.judged c ds hds
  have haccepted : s.accepted c filter = .ok kept := by
    unfold Synthesizer.accepted
    rw [hds]
    exact hkept
  exact ⟨kept, haccepted, h.fits c kept haccepted⟩

/-- Without a filter it is enough to look at the classes that the world describes. -/
theorem legible_of_described (hobject : s.world.find? ClassId.object = none)
    (h : ∀ info ∈ s.world.classes, ∃ ds, s.world.candidates? info.id = .ok ds ∧
      ∀ d ∈ ds, s.book.Fits s.world d) : s.Legible none := by
  have hall := World.candidates?_all (P := fun ds => ∀ d ∈ ds, s.book.Fits s.world d) hobject nofun h
  refine ⟨fun c => ?_, fun c ds _ => ⟨ds, PropertyFilter.apply_none s.world ds⟩, fun c kept hkept => ?_⟩
  · obtain ⟨ds, hds, -⟩ := hall c
    exact ⟨ds, hds⟩
  · obtain ⟨ds, hds, hfits⟩ := hall c
    unfold Synthesizer.accepted at hkept
    rw [hds] at hkept
    dsimp only at hkept
    rw [PropertyFilter.apply_none] at hkept
    cases hkept
    exact hfits

theorem type_regular (t : TypeExpr) : FailsWith Regular (s.type t) :=
  Synthesis.emitting_failsWith (Emitting.type_regular s.world t)

theorem valueText_regular {t : TypeExpr} (h : s.world.valueLike t = true) :
    FailsWith Regular (s.valueText t) := by
  unfold valueText
  split_ifs
  · exact type_regular _
  · exact (Synthesis.emitting_failsWith (nullable_failsWith s.world Regular h)).bind fun _ =>
      type_regular _

theorem memberType_regular (d : Descriptor) : FailsWith Regular (s.memberType d) := by
  unfold memberType
  split
  · exact type_regular _
  · split
    · refine FailsWith.get.bind fun _ => ?_
      split
      · exact .pure _
      · exact type_regular _
    · split
      next hvalue => exact valueText_regular hvalue
      · exact type_regular _

theorem member_regular {d : Descriptor} (h : s.book.Fits s.world d) : FailsWith Regular (s.member d) :=
  (memberType_regular d).bind fun _ =>
    (Synthesis.emitting_failsWith (translateAll_regular h)).bind fun _ => .pure _

theorem openContract_regular (c : Component) (around : Option String) :
    FailsWith Regular (s.openContract c around) := by
  intro d e d' h
  rcases hr : d.rival? (s.contractName c.type around) c.type with _ | other
  · obtain ⟨_, _, -, -, -, hopen⟩ := s.openContract_free hr
    rw [hopen] at h
    cases h
  · rw [s.openContract_taken hr] at h
    cases h
    exact Or.inl trivial

/-- A regular error, or that the bound is too low. -/
def RegularOrDeep (e : EmissionError) : Prop := e.Regular ∨ e = .tooDeep

theorem regularOrDeep {α : Type} {m : Synthesis α} (h : FailsWith Regular m) : FailsWith RegularOrDeep m :=
  fun _ _ _ hr => Or.inl (h hr)

section

variable {create : Component → Option String → Synthesis Nat}

theorem createNested_regular {c : Component} (d : Descriptor) (name : String)
    (h : ∀ c' around, c'.filter = c.filter → FailsWith RegularOrDeep (create c' around)) :
    FailsWith RegularOrDeep (s.createNested create c name d) := by
  unfold createNested
  split
  next nested _ =>
    refine FailsWith.get.bind fun _ => ?_
    split_ifs
    · exact (h (nestedComponent c nested) (some name) rfl).bind fun _ => .pure _
    · exact .pure _
  · exact .pure _

theorem addMembers_regular {c : Component} (place : Nat) (name : String) {ds : List Descriptor}
    (h : ∀ c' around, c'.filter = c.filter → FailsWith RegularOrDeep (create c' around))
    (hds : ∀ d ∈ ds, s.book.Fits s.world d) (seen : List String) :
    FailsWith RegularOrDeep (s.addMembers create c place name ds seen) := by
  induction ds generalizing seen with
  | nil => exact .pure _
  | cons d rest ih =>
    obtain ⟨hd, hrest⟩ := List.forall_mem_cons.1 hds
    unfold addMembers
    split_ifs
    · exact ih hrest seen
    · refine FailsWith.bind ?_ fun _ => ih hrest _
      exact (createNested_regular d name h).bind fun _ => (regularOrDeep (member_regular hd)).bind fun _ =>
        .modify _

end

theorem create_regular (h : s.Legible filter) (fuel : Nat) (c : Component) (around : Option String)
    (hfilter : c.filter = filter) : FailsWith RegularOrDeep (s.create fuel c around) := by
  induction fuel generalizing c around with
  | zero => exact .throw (Or.inr rfl)
  | succ fuel ih =>
    unfold create
    refine (regularOrDeep (openContract_regular c around)).bind fun opened => ?_
    obtain ⟨kept, haccepted, hfits⟩ := h.accepted c.type
    dsimp only
    rw [hfilter, haccepted]
    refine FailsWith.bind ?_ fun _ => .pure _
    exact addMembers_regular opened.1 opened.2 (fun c' around' hc' => ih c' around' (hc'.trans hfilter)) hfits []

theorem addComponent_regular {c : Component} (h : s.Legible c.filter) :
    FailsWith RegularOrDeep (s.addComponent c) := by
  refine FailsWith.bind ?_ fun _ => FailsWith.get.bind fun _ => ?_
  · exact .forM (fun t => (regularOrDeep (type_regular t)).map) _
  · split_ifs
    · exact Synthesis.emitting_failsWith (.of_ok fun _ => ⟨_, _, rfl⟩)
    · exact (create_regular h s.depth c none rfl).bind fun _ => .pure _

/-- Deriving contracts of what can be told and written fails with a declared error, or over an expression
without a text. -/
theorem synthesize_regular {components : List Component} (h : ∀ c ∈ components, s.Legible c.filter) :
    FailsWith Regular (s.synthesize components) := by
  have hdeep : FailsWith RegularOrDeep (s.synthesize components) := by
    refine (FailsWith.forM_of_mem fun c hc => addComponent_regular (h c hc)).bind fun _ => ?_
    refine FailsWith.bind ?_ fun _ => FailsWith.get.bind fun _ => .pure _
    exact Synthesis.emitting_failsWith (recording_failsWith
      (FailsWith.of_ok fun _ => ⟨_, _, rfl⟩ : FailsWith _ (Recording.form "Annotated")))
  intro d e d' hr
  rcases hdeep hr with hregular | rfl
  · exact hregular
  · exact (s.synthesize_within components d (congrArg Prod.fst hr)).elim

end Synthesizer

end ModelContracts
