import ModelContracts.Proofs.Literal.Rereading
import ModelContracts.World.Standard

/-!
Markers that are translated with the stock rules and read again. A marker of a stock kind becomes a call of
its class that makes the same marker, and a description of any kind a call that makes a description with the
same text. The translations of a property stand in the order of its markers.
-/

namespace ModelContracts

open Ledger Emitting

/-! The stock marker kinds. -/

/-- The refresh modes with their values. -/
def refreshModes : List (String × Value) := [("NONE", .int 0), ("ALL", .int 1), ("REPAINT", .int 2)]

/-- The world has the stock marker kinds and the refresh modes as they are shipped. -/
structure World.Shipped (w : World) : Prop where
  markers : ∀ s ∈ MarkerShape.stock, w.find? s.kind = some (Standard.markerClass s)
  modes : w.find? ClassId.refreshMode =
    some { Standard.classOf ClassId.refreshMode [ClassId.enum] with members := refreshModes }

theorem standard_shipped : World.standard.Shipped := by
  refine ⟨fun s hs => ?_, rfl⟩
  cases s with
  | bare => exact absurd hs (by decide)
  | _ => rfl

namespace World.Shipped

variable {w : World} (hw : w.Shipped) {s : MarkerShape}

include hw

theorem lineage (hs : s ∈ MarkerShape.stock) : w.lineage s.kind = (Standard.markerClass s).lineage := by
  rw [World.lineage, hw.markers s hs]

theorem shape? (hs : s ∈ MarkerShape.stock) : w.shape? s.kind = some s := by
  have hfirst : (Standard.markerClass s).lineage = s.kind :: (Standard.markerClass s).lineage.tail := rfl
  rw [World.shape?, hw.lineage hs, hfirst, List.findSome?_cons, hw.markers s hs]
  rfl

/-- Calling a stock kind makes a marker of it. -/
theorem make? (hs : s ∈ MarkerShape.stock) (args : List Value) :
    w.make? s.kind args = (Marker.make? s.kind s args).map Marker.toValue := by
  have hnumbers : ∀ s ∈ MarkerShape.stock, s.kind ≠ ClassId.decimal ∧ s.kind ≠ ClassId.fraction := by
    decide
  unfold World.make?
  rw [if_neg (hnumbers s hs).1, if_neg (hnumbers s hs).2, hw.shape? hs, Option.bind_some]

theorem labels_refreshMode {label : String} {raw : Value} (h : (label, raw) ∈ refreshModes) :
    w.Labels ClassId.refreshMode (.member ClassId.refreshMode .plain (some label) raw) := by
  have hdotted : w.Dotted ClassId.refreshMode := by
    apply World.dotted_of_simple <;> decide +kernel
  have hleads : w.member? ClassId.refreshMode label =
      some (.member ClassId.refreshMode .plain (some label) raw) := by
    have hmixin : w.mixin ClassId.refreshMode = .plain := by
      rw [World.mixin, World.derives, World.lineage, hw.modes, World.derives, World.lineage, hw.modes]
      rfl
    rw [World.member?, hw.modes, hmixin]
    simp only [refreshModes, List.mem_cons, Prod.mk.injEq, List.not_mem_nil, or_false] at h
    rcases h with ⟨rfl, rfl⟩ | ⟨rfl, rfl⟩ | ⟨rfl, rfl⟩ <;> rfl
  have hpart : Text.isPart label.toList = true := by
    have hall : ∀ m ∈ refreshModes, Text.isPart m.1.toList = true := by
      decide +kernel
    exact hall _ h
  exact .member hdotted.sayable (by decide) hpart hleads

end World.Shipped

/-! Calls. -/

section

variable {w : World} {m : Marker} {d : Descriptor} {shape : MarkerShape} {u : Value}

/-- A marker is translated to a text that makes a value. -/
def Translated (w : World) (b : RuleBook) (named : String → Option Char) (d : Descriptor) (m : Marker)
    (u : Value) : Prop :=
  ∀ s, ∃ text t, (b.translate w m d).run s = (.ok (some text), t) ∧ w.Evaluates named t.ledger text u

theorem translated_of_stock {b : RuleBook} {r : Rule} {text : Emitting String} {e : Making Head}
    (named : String → Option Char) (hfind : b.orStock.find? w m d = some r)
    (hemitter : r.emitter = .stock shape) (htext : stockText w m d shape = some <$> text) {p : Phrase}
    (hprints : Prints w p text) (hclosed : p.Closed) (hmakes : p.Makes w e) (hvalue : e.value? w = some u) :
    Translated w b named d m u := by
  intro s
  obtain ⟨written, t, hrun, -, hwritten⟩ := hprints s
  have hkept : (some written).filter (· ≠ "") = some written := by
    simp [(hwritten _ (.refl _)).ne_empty hclosed]
  have hemitted : (r.emitter.text w m d).run s = (.ok (some written), t) := by
    rw [hemitter, Emitter.text, htext, run_map, hrun]
    rfl
  refine ⟨written, t, ?_, hmakes.evaluates hvalue hwritten named⟩
  unfold RuleBook.translate
  rw [hfind]
  dsimp only
  rw [run_bind_of_ok hemitted, hkept, run_pure]

end

/-! Finding rules. -/

namespace RuleBook

variable {w : World} {m : Marker} {d : Descriptor} {shape : MarkerShape}

/-- Which rule is found for a marker of a stock kind is told by the kind. -/
theorem find?_stock (hw : w.Shipped) (hs : shape ∈ MarkerShape.stock) (hm : m.kind = shape.kind) :
    stock.find? w m d = stock.rules.find? fun r =>
      (if r.exact then shape.kind = r.kind else (Standard.markerClass shape).lineage.contains r.kind) &&
        r.guard.holds m d := by
  unfold find? Rule.applies World.derives
  rw [hm, hw.lineage hs]

end RuleBook

/-! Markers that stay what they are. -/

/-- A marker of a stock kind that is written with all that it holds. -/
inductive Marker.Restated (d : Descriptor) : Marker → Prop
  | category (s : String) : Restated d (.stock .category [.text s])
  | required : Restated d (.stock .required [])
  | editor (name base : String) : Restated d (.stock .editor [.text name, .text base])
  | refreshProperties {label : String} {raw : Value} (h : (label, raw) ∈ refreshModes) :
    Restated d (.stock .refreshProperties [.member ClassId.refreshMode .plain (some label) raw])
  | description (s : String) : Restated d (.stock .description [.text s])
  | readOnly (b : Bool) : Restated d (.stock .readOnly [.bool b])
  | localizable (b : Bool) (h : d.type.isClass ClassId.str = true) :
    Restated d (.stock .localizable [.bool b])

section

variable {w : World} {m : Marker} {d : Descriptor} {shape : MarkerShape} {u : Value}

theorem sayable_kind (w : World) (hs : shape ∈ MarkerShape.stock) :
    w.Sayable shape.kind ∧ shape.kind ≠ ClassId.noneType := by
  have hmodule : Text.isDotted "modelgen.markers" = true := by decide +kernel
  have hall : ∀ s ∈ MarkerShape.stock, Text.isDotted s.stockName = true ∧
      Text.contains "<locals>" s.stockName = false ∧ Text.firstPiece '.' s.stockName = s.stockName ∧
        s.kind ≠ ClassId.noneType := by
    decide +kernel
  obtain ⟨hpath, hglobal, hsimple, hnone⟩ := hall shape hs
  have hdotted : w.Dotted (ClassId.marker shape.stockName) :=
    World.dotted_of_simple hmodule hpath hglobal hsimple
  exact ⟨hdotted.sayable, hnone⟩

/-- The text of a call of a stock kind makes the marker that the arguments make. -/
theorem translated_call {source : MarkerShape} {r : Rule} {args : Emitting String} {ps : List Phrase}
    {as : List (Atom Head)} {vs : List Value} {m' : Marker} (named : String → Option Char)
    (hw : w.Shipped) (hs : shape ∈ MarkerShape.stock) (hfind : RuleBook.stock.find? w m d = some r)
    (hemitter : r.emitter = .stock source) (htext : stockText w m d source = some <$> stockCall w shape args)
    (hargs : Prints w (Phrase.commas ps) args) (has : List.Forall₂ (fun p a => Phrase.Makes w p (.atom a)) ps as)
    (hvs : as.mapM (Atom.value? w) = some vs) (hmake : Marker.make? shape.kind shape vs = some m') :
    Translated w RuleBook.stock named d m m'.toValue := by
  obtain ⟨hkind, hnone⟩ := sayable_kind w hs
  refine translated_of_stock named hfind hemitter htext (hargs.stockCall hkind)
    (closed_call shape _) (Phrase.makes_call hkind hnone has) ?_
  rw [Making.value?, hvs, Option.bind_some, hw.make? hs, hmake]
  rfl

theorem Marker.Restated.translated (hw : w.Shipped) (h : m.Restated d) (named : String → Option Char) :
    Translated w RuleBook.stock named d m m.toValue := by
  have found {shape : MarkerShape} {args : List Value} {r : Rule} (hs : shape ∈ MarkerShape.stock)
      (hr : (RuleBook.stock.rules.find? fun r =>
        (if r.exact then shape.kind = r.kind else (Standard.markerClass shape).lineage.contains r.kind) &&
          r.guard.holds (Marker.stock shape args) d) = some r) :
      RuleBook.stock.find? w (Marker.stock shape args) d = some r :=
    (RuleBook.find?_stock hw hs rfl).trans hr
  cases h with
  | category s =>
    exact translated_call named hw (by decide) (found (by decide) rfl) rfl rfl (.pure fun _ => .word _)
      (.cons (Phrase.makes_text s) .nil) rfl rfl
  | required =>
    obtain ⟨hkind, hnone⟩ := sayable_kind w (show .required ∈ MarkerShape.stock by decide)
    refine translated_of_stock named (found (by decide) rfl) rfl ?_
      ((Prints.cls hkind).map fun _ _ hhead => hhead.append (.word "()")) (closed_ownCall _)
      (Phrase.makes_ownCall hkind hnone) ?_
    · simp [stockText, Marker.stock]
    · rw [Making.value?]
      exact hw.make? (by decide) []
  | editor name base =>
    have hargs : Prints w (Phrase.commas [[.word (Text.quote name)], [.word (Text.quote base)]])
        (pure (Text.quote name ++ ", " ++ Text.quote base)) :=
      .pure fun _ => ((Written.word _).append (.word ", ")).append (.word _)
    exact translated_call named hw (by decide) (found (by decide) rfl) rfl rfl hargs
      (.cons (Phrase.makes_text name) (.cons (Phrase.makes_text base) .nil)) rfl rfl
  | @refreshProperties label raw h =>
    cases hw.labels_refreshMode h with
    | member sayable hnone part leads =>
      have hmode : [Atom.name (.member ClassId.refreshMode label)].mapM (Atom.value? w) =
          some [.member ClassId.refreshMode .plain (some label) raw] := by
        simp [Atom.value?, Head.value?, leads]
      have hargs : Prints w (Phrase.commas [ClassId.refreshMode.memberPhrase (some label)]) _ :=
        (Prints.cls sayable).map fun _ _ hhead => hhead.member (some label)
      exact translated_call named hw (by decide) (found (by decide) rfl) rfl rfl hargs
        (.cons (Phrase.makes_member sayable hnone part) .nil) hmode rfl
  | description s =>
    exact translated_call named hw (by decide) (found (by decide) rfl) rfl rfl (.pure fun _ => .word _)
      (.cons (Phrase.makes_text s) .nil) rfl rfl
  | readOnly b =>
    exact translated_call named hw (by decide) (found (by decide) rfl) rfl rfl
      (.pure fun _ => .word _) (.cons (Phrase.makes_bool b) .nil) rfl rfl
  | localizable b h =>
    exact translated_call named hw (by decide)
      (found (by decide) (List.find?_cons_of_pos (Bool.and_eq_true_iff.2 ⟨rfl, h⟩))) rfl rfl
      (.pure fun _ => .word _) (.cons (Phrase.makes_bool b) .nil) rfl rfl

/-- A marker with a description for which no rule stands before that of descriptions. -/
structure Marker.Describes (w : World) (d : Descriptor) (m : Marker) (text : String) : Prop where
  text : m.field "description" = .text text
  kind : m.kind = MarkerShape.localizedDescription.kind ∨
    w.derives m.kind MarkerShape.description.kind = true ∧
      (∀ s ∈ [MarkerShape.required, .editor, .refreshProperties, .typeConverter],
        w.derives m.kind s.kind = false) ∧
      (w.derives m.kind MarkerShape.localizable.kind && d.type.isClass ClassId.str) = false

/-- The rule that is found for a description is that of descriptions, or that of localized ones. -/
theorem Marker.Describes.find? {text : String} (hw : w.Shipped) (h : m.Describes w d text) :
    ∃ r source, RuleBook.stock.find? w m d = some r ∧ r.emitter = .stock source ∧
      (source = .description ∨ source = .localizedDescription) := by
  rcases h.kind with hkind | ⟨hkind, hearlier, hlocalizable⟩
  · exact ⟨_, _, (RuleBook.find?_stock hw (by decide) hkind).trans rfl, rfl, Or.inr rfl⟩
  · have hcategory : m.kind ≠ MarkerShape.category.kind := by
      intro heq
      rw [heq, World.derives, hw.lineage (by decide)] at hkind
      exact absurd hkind (by decide)
    simp only [List.forall_mem_cons, List.not_mem_nil, false_imp_iff, implies_true, and_true] at hearlier
    obtain ⟨hrequired, heditor, hrefresh, hconverter⟩ := hearlier
    by_cases hlocalized : m.kind = MarkerShape.localizedDescription.kind
    · exact ⟨_, _, (RuleBook.find?_stock hw (by decide) hlocalized).trans rfl, rfl, Or.inr rfl⟩
    · refine ⟨⟨MarkerShape.description.kind, false, .always, .stock .description⟩, _, ?_, rfl, Or.inl rfl⟩
      simp [RuleBook.find?, RuleBook.stock, Rule.applies, Guard.holds, hlocalizable, hcategory, hrequired,
        heditor, hrefresh, hconverter, hlocalized, hkind]

theorem Marker.Describes.translated {text : String} (hw : w.Shipped) (h : m.Describes w d text)
    (named : String → Option Char) :
    Translated w RuleBook.stock named d m (Marker.stock .description [.text text]).toValue := by
  obtain ⟨r, source, hfind, hemitter, hsource⟩ := h.find? hw
  have htext : stockText w m d source =
      some <$> stockCall w .description (pure (Text.quote text)) := by
    have hquoted : quoted (m.field "description") = pure (Text.quote text) := by
      rw [h.text]
      rfl
    rcases hsource with rfl | rfl
    · rw [stockText, hquoted]
    · rw [stockText, hquoted]
  exact translated_call named hw (by decide) hfind hemitter htext (.pure fun _ => .word (Text.quote text))
    (.cons (Phrase.makes_text text) .nil) rfl rfl

theorem find?_localizable (hw : w.Shipped) (hm : m.kind = MarkerShape.localizable.kind)
    (h : d.type.isClass ClassId.str = false) : RuleBook.stock.find? w m d = none := by
  rw [RuleBook.find?_stock hw (by decide) hm, List.find?_eq_none]
  have hother : ∀ r ∈ RuleBook.stock.rules.tail,
      (if r.exact then decide (MarkerShape.localizable.kind = r.kind)
        else (Standard.markerClass .localizable).lineage.contains r.kind) = false := by
    decide
  intro r hr
  -- The first rule is that of localizable texts; the others are for other kinds.
  rcases List.mem_cons.1 hr with rfl | hr
  · simp [Guard.holds, h]
  · rw [hother r hr, Bool.false_and]
    exact Bool.false_ne_true

end

/-! All markers of a property. -/

/-- Markers are translated one after the other. -/
inductive RuleBook.Translates (b : RuleBook) (w : World) (d : Descriptor) :
    List Marker → Emission → List (Option String) → Emission → Prop
  | nil (s : Emission) : Translates b w d [] s [] s
  | cons {m : Marker} {ms : List Marker} {s t u : Emission} {o : Option String} {os : List (Option String)}
    (first : (b.translate w m d).run s = (.ok o, t)) (rest : Translates b w d ms t os u) :
    Translates b w d (m :: ms) s (o :: os) u

namespace RuleBook

variable {b : RuleBook} {w : World} {d : Descriptor} {ms ns : List Marker} {s t u : Emission}
  {os : List (Option String)}

theorem mapM_translate : (ms.mapM fun m => b.translate w m d).run s = (.ok os, t) ↔
    b.Translates w d ms s os t := by
  induction ms generalizing s os with
  | nil =>
    rw [List.mapM_nil]
    constructor
    · intro h
      cases h
      exact .nil _
    · intro h
      cases h
      rfl
  | cons m ms ih =>
    rw [List.mapM_cons]
    constructor
    · intro h
      obtain ⟨o, u, hfirst, hrest⟩ := run_bind_ok h
      obtain ⟨os, u', hmany, hlast⟩ := run_bind_ok hrest
      cases hlast
      exact .cons hfirst (ih.1 hmany)
    · intro h
      cases h with
      | cons first rest => rw [run_bind_of_ok first, run_bind_of_ok (ih.2 rest), run_pure]

theorem translates_append : b.Translates w d (ms ++ ns) s os u ↔
    ∃ ps qs t, b.Translates w d ms s ps t ∧ b.Translates w d ns t qs u ∧ os = ps ++ qs := by
  induction ms generalizing s os with
  | nil =>
    constructor
    · intro h
      exact ⟨[], os, s, .nil s, h, rfl⟩
    · rintro ⟨ps, qs, t, hfirst, hsecond, rfl⟩
      cases hfirst
      exact hsecond
  | cons m ms ih =>
    constructor
    · intro h
      cases h with
      | cons first rest =>
        obtain ⟨ps, qs, t, hfirst, hsecond, rfl⟩ := ih.1 rest
        exact ⟨_ :: ps, qs, t, .cons first hfirst, hsecond, rfl⟩
    · rintro ⟨ps, qs, t, hfirst, hsecond, rfl⟩
      cases hfirst with
      | cons first rest => exact .cons first (ih.2 ⟨_, qs, t, rest, hsecond, rfl⟩)

/-- A property of texts that has no marker about being localizable. -/
def Unlocalized (w : World) (d : Descriptor) : Prop :=
  d.type.isClass ClassId.str = true ∧ ∀ m ∈ d.markers, w.derives m.kind MarkerShape.localizable.kind = false

theorem markersToTranslate_eq : (Unlocalized w d → markersToTranslate w d =
      d.markers ++ [Marker.stock .localizable [.bool true]]) ∧
    (¬ Unlocalized w d → markersToTranslate w d = d.markers) := by
  have hcondition : (d.type.isClass ClassId.str && !d.has w MarkerShape.localizable.kind) = true ↔
      Unlocalized w d := by
    simp [Unlocalized, Descriptor.has, Descriptor.isOf]
  unfold markersToTranslate
  exact ⟨fun h => if_pos (hcondition.2 h), fun h => if_neg (mt hcondition.1 h)⟩

theorem translateAll_run {texts : List String} : (b.translateAll w d).run s = (.ok texts, t) ↔
    ∃ os, b.Translates w d (markersToTranslate w d) s os t ∧ texts = os.filterMap id := by
  unfold translateAll
  constructor
  · intro h
    obtain ⟨os, u, hmany, hlast⟩ := run_bind_ok h
    cases hlast
    exact ⟨os, mapM_translate.1 hmany, rfl⟩
  · rintro ⟨os, hmany, rfl⟩
    rw [run_bind_of_ok (mapM_translate.2 hmany), run_pure]

/-- What the stock rules make of markers. A restated marker is translated to a call that makes the same
marker, and one with a description to a call that makes a description with the same text. For others no rule
stands, or the rule for texts does not hold. All markers of a property are translated in their order, and
of a text that has no marker about being localizable it is told at the end that it is. -/
theorem stock_translates (hw : w.Shipped) (named : String → Option Char) (d : Descriptor) :
    (∀ m : Marker, m.Restated d → Translated w stock named d m m.toValue) ∧
    (∀ (m : Marker) text, m.Describes w d text →
      Translated w stock named d m (Marker.stock .description [.text text]).toValue) ∧
    (∀ m : Marker, m.kind = MarkerShape.localizable.kind ∧ d.type.isClass ClassId.str = false ∨
      stock.find? w m d = none → ∀ s, (stock.translate w m d).run s = (.ok none, s)) ∧
    ∀ s texts t, (stock.translateAll w d).run s = (.ok texts, t) ↔
      ∃ os u, stock.Translates w d d.markers s os u ∧
        (Unlocalized w d → ∃ text,
          (stock.translate w (Marker.stock .localizable [.bool true]) d).run u = (.ok (some text), t) ∧
            w.Evaluates named t.ledger text (Marker.stock .localizable [.bool true]).toValue ∧
              texts = os.filterMap id ++ [text]) ∧
        (¬ Unlocalized w d → t = u ∧ texts = os.filterMap id) := by
  refine ⟨fun m hm => hm.translated hw named, fun m text hm => hm.translated hw named, ?_, ?_⟩
  · intro m hm s
    have hfind : stock.find? w m d = none := by
      rcases hm with ⟨hkind, htype⟩ | hfind
      · exact find?_localizable hw hkind htype
      · exact hfind
    unfold translate
    rw [orStock_stock, hfind]
    rfl
  · intro s texts t
    rw [translateAll_run]
    by_cases hunlocalized : Unlocalized w d
    · rw [markersToTranslate_eq.1 hunlocalized]
      constructor
      · rintro ⟨os, hmany, rfl⟩
        obtain ⟨ps, qs, u, hfirst, hlast, rfl⟩ := translates_append.1 hmany
        have hstated : (Marker.stock .localizable [.bool true]).Restated d :=
          .localizable true hunlocalized.1
        obtain ⟨text, t', hrun, hmakes⟩ := hstated.translated hw named u
        cases hlast with
        | cons first rest =>
          cases rest
          rw [hrun] at first
          cases first
          exact ⟨ps, u, hfirst, fun _ => ⟨text, hrun, hmakes, by simp⟩, fun h => (h hunlocalized).elim⟩
      · rintro ⟨os, u, hmany, hlocalizable, -⟩
        obtain ⟨text, hrun, -, rfl⟩ := hlocalizable hunlocalized
        refine ⟨os ++ [some text], translates_append.2 ⟨os, _, u, hmany, .cons hrun (.nil t), rfl⟩, ?_⟩
        simp
    · rw [markersToTranslate_eq.2 hunlocalized]
      constructor
      · rintro ⟨os, hmany, rfl⟩
        exact ⟨os, t, hmany, fun h => (hunlocalized h).elim, fun _ => ⟨rfl, rfl⟩⟩
      · rintro ⟨os, u, hmany, -, hsame⟩
        obtain ⟨rfl, rfl⟩ := hsame hunlocalized
        exact ⟨os, hmany, rfl⟩

end RuleBook

namespace Captions

/-- A text, with a category. -/
def caption : Descriptor where
  name := "Caption"
  type := .cls ClassId.str
  declaring := ClassId.object
  reflected := ClassId.object
  readable := true
  writable := true
  attachments := [⟨0, .stock .category [.text "Data"]⟩]
  fresh := 1

theorem caption_translated : World.standard.Shipped ∧
    (Marker.stock .category [.text "Data"]).Restated caption ∧
    Translated World.standard RuleBook.stock (fun _ => none) caption (Marker.stock .category [.text "Data"])
      (Marker.stock .category [.text "Data"]).toValue ∧
    RuleBook.Unlocalized World.standard caption ∧
    ∃ texts t os u, (RuleBook.stock.translateAll World.standard caption).run { ledger := {} } =
      (.ok texts, t) ∧ RuleBook.stock.Translates World.standard caption caption.markers { ledger := {} } os u := by
  have hall := RuleBook.stock_translates standard_shipped (fun _ => none) caption
  have hcategory : (Marker.stock .category [.text "Data"]).Restated caption := .category "Data"
  have hunlocalized : RuleBook.Unlocalized World.standard caption := by
    refine ⟨by rfl, fun m hm => ?_⟩
    rw [List.mem_singleton.1 hm]
    rfl
  refine ⟨standard_shipped, hcategory, hall.1 _ hcategory, hunlocalized, ?_⟩
  have hrun : ∃ texts t, (RuleBook.stock.translateAll World.standard caption).run { ledger := {} } =
    (.ok texts, t) := ⟨_, _, rfl⟩
  obtain ⟨texts, t, hrun⟩ := hrun
  obtain ⟨os, u, hmany, -, -⟩ := (hall.2.2.2 _ texts t).1 hrun
  exact ⟨texts, t, os, u, hrun, hmany⟩

end Captions

namespace Notes

def note : ClassId := ⟨"app", "Note", 0⟩

/-- The stock kinds, and a kind of descriptions that are required, too. -/
def world : World :=
  { World.standard with
    classes := World.standard.classes ++
      [{ id := note, lineage := [note, MarkerShape.description.kind, MarkerShape.required.kind,
                                 ClassId.marker "Marker", ClassId.object], record := some true }]
    modules := World.standard.modules ++ [{ name := "app", attributes := [("Note", .cls note)] }] }

def number : Descriptor where
  name := "Number"
  type := .cls ClassId.int
  declaring := ClassId.object
  reflected := ClassId.object
  readable := true
  writable := true

/-- A description that is required, too, loses its text: the rule that stands first decides. -/
theorem note_required : world.derives note MarkerShape.description.kind = true ∧
    Marker.make? note .description [.text "t"] = some ⟨note, .description, [.text "t"]⟩ ∧
    ∃ text t, (RuleBook.stock.translate world ⟨note, .description, [.text "t"]⟩ number).run { ledger := {} } =
        (.ok (some text), t) ∧
      ∀ u, world.Evaluates (fun _ => none) t.ledger text u →
        ¬ u.Agrees (Marker.stock .description [.text "t"]).toValue := by
  refine ⟨by rfl, by rfl, _, _, rfl, ?_⟩
  intro u hu hagrees
  obtain ⟨e, hvalue, hread⟩ := hu.expression (b := .call "Note" []) (by rfl)
  obtain ⟨c, rfl⟩ : ∃ c, e = .call (.mention (.cls c)) [] := by
    rcases e with _ | ⟨(⟨c⟩ | _ | _) | _, args⟩
    · cases hread
    · exact ⟨c, by rw [List.map_eq_nil_iff.1 (Making.call.inj hread).2]⟩
    · cases hvalue
    · cases hvalue
    · cases hvalue
  -- Whatever class is called, it is not that of descriptions, which does without no text.
  have hmade : world.make? c [] = some u := hvalue
  have hkind : c = MarkerShape.description.kind := by
    unfold World.make? at hmade
    split_ifs at hmade
    obtain ⟨shape, -, hmarker⟩ := Option.bind_eq_some_iff.1 hmade
    obtain ⟨m, hm, rfl⟩ := Option.map_eq_some_iff.1 hmarker
    obtain ⟨args, -, rfl⟩ := Option.map_eq_some_iff.1 hm
    rcases hagrees with heq | hequal
    · exact (Value.marker.inj heq).1
    · simp only [Marker.toValue, Value.equal, Bool.and_eq_true, decide_eq_true_eq] at hequal
      exact hequal.1
  subst hkind
  cases hmade

end Notes

end ModelContracts
