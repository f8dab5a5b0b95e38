import ModelContracts.Proofs.Expression.Meaning
import ModelContracts.Proofs.Reference.Types
import ModelContracts.Proofs.Text.Pieces

/-!
The expression for which the text of a type is written. Classes and forms of the typing module stand in it
for their names. The names that a ledger gives are dotted names, as the names of all classes are that can
be imported, so the text is read as that expression.
-/

namespace ModelContracts

open Ledger

/-! The expression for which a text is written. -/

def ClassId.expression (c : ClassId) : TypeSyntax Head :=
  if c = ClassId.noneType then .none else .name (.mention (.cls c))

def Value.expression : Value → TypeSyntax Head
  | .bool b => .bool b
  | .int n => .number n
  | .text s => .text s
  | .bytes data => .octets data
  | .member owner _ (some label) _ => .name (.member owner label)
  | _ => .none

namespace TypeExpr

def formHead (name : String) : Head := .mention (.form name)

mutual

def expression : TypeExpr → TypeSyntax Head
  | .cls c => c.expression
  | .annotated base _ => expression base
  | .union _ ts =>
    if (ts.filter (!·.isNoneType)).length = 1 && ts.any (·.isNoneType) then
      .subscript (formHead "Optional") (otherExpressions ts)
    else .subscript (formHead "Union") (expressions ts)
  | .literal vs => .subscript (formHead "Literal") (vs.map Value.expression)
  | .generic _ origin args =>
    if args.isEmpty then origin.expression else .subscript (.mention (.cls origin)) (expressions args)
  | .ellipsis => .dots
  | .params ts => .list (expressions ts)
  | _ => .none
termination_by structural t => t

def expressions : List TypeExpr → List (TypeSyntax Head)
  | [] => []
  | t :: ts => expression t :: expressions ts
termination_by structural ts => ts

def otherExpressions : List TypeExpr → List (TypeSyntax Head)
  | [] => []
  | t :: ts => if t.isNoneType then otherExpressions ts else expression t :: otherExpressions ts
termination_by structural ts => ts

end

theorem expressions_eq (ts : List TypeExpr) : expressions ts = ts.map expression := by
  induction ts with
  | nil => rfl
  | cons t ts ih => rw [expressions, ih, List.map_cons]

theorem otherExpressions_eq (ts : List TypeExpr) :
    otherExpressions ts = (ts.filter (!·.isNoneType)).map expression := by
  induction ts with
  | nil => rfl
  | cons t ts ih =>
    rw [otherExpressions, ih]
    by_cases ht : t.isNoneType = true <;> simp [ht]

end TypeExpr

namespace World

variable (w : World)

/-- A class that a source can import: it goes by a dotted name in a module that does, and the first part of
the name leads to something there. -/
structure Dotted (c : ClassId) : Prop where
  module : Text.isDotted c.moduleName = true
  path : Text.isDotted c.qualName = true
  global : Text.contains "<locals>" c.qualName = false
  placed : w.Placed c

/-- A value that a literal type can list: a member of an enumeration has a label that can be written. -/
def Constant : Value → Prop
  | .none | .bool _ | .int _ | .text _ | .bytes _ => True
  | .member owner mixin (some label) raw => w.Dotted owner ∧ owner ≠ ClassId.noneType ∧
      Text.isPart label.toList = true ∧
        w.member? owner label = some (.member owner mixin (some label) raw)
  | _ => False

mutual

/-- Types that are made of such classes, unions, literal types and parameterised types under any annotations.
Dots and lists of parameters are arguments. -/
def Expressible (inside : Bool) : TypeExpr → Prop
  | .cls c => w.Dotted c
  | .annotated base _ => Expressible false base
  | .union _ ts => ts ≠ [] ∧ AllExpressible false ts
  | .literal vs => vs ≠ [] ∧ TypeExpr.distinctValues vs = vs ∧ ∀ v ∈ vs, w.Constant v
  | .generic form origin args => w.Dotted origin ∧
      (form = .bare ∧ args = [] ∨
        args ≠ [] ∧ origin ≠ ClassId.noneType ∧ ∃ t, w.subscript? origin args = .ok t) ∧
          AllExpressible true args
  | .ellipsis => inside = true
  | .params ts => inside = true ∧ AllExpressible false ts
  | _ => False
termination_by structural t => t

def AllExpressible (inside : Bool) : List TypeExpr → Prop
  | [] => True
  | t :: ts => Expressible inside t ∧ AllExpressible inside ts
termination_by structural ts => ts

end

variable {w}

theorem typePhrases_eq (ts : List TypeExpr) : w.typePhrases ts = ts.map w.typePhrase := by
  induction ts with
  | nil => rfl
  | cons t ts ih => rw [typePhrases, ih, List.map_cons]

theorem otherPhrases_eq (ts : List TypeExpr) :
    w.otherPhrases ts = (ts.filter (!·.isNoneType)).map w.typePhrase := by
  induction ts with
  | nil => rfl
  | cons t ts ih =>
    rw [otherPhrases, ih]
    by_cases ht : t.isNoneType = true <;> simp [ht]

theorem literalPhrases_eq (vs : List Value) : w.literalPhrases vs = vs.map w.literalPhrase := by
  induction vs with
  | nil => rfl
  | cons v vs ih => rw [literalPhrases, ih, List.map_cons]

end World

/-! Names in expressions. -/

namespace Text

theorem isDotted_append {s t u : String} (h : s.toList = t.toList ++ '.' :: u.toList)
    (ht : isDotted t = true) (hu : isDotted u = true) : isDotted s = true := by
  rw [isDotted, h, pieces_append, List.all_append]
  exact Bool.and_eq_true_iff.2 ⟨ht, hu⟩

theorem isDotted_of_isPart {s : String} (h : isPart s.toList = true) : isDotted s = true := by
  have hdot : '.' ∉ s.toList := by
    have hnone : identifierStart.contains '.' = false ∧ identifierContinue.contains '.' = false := by
      decide +kernel
    intro hmem
    rcases hs : s.toList with _ | ⟨c, cs⟩
    · rw [hs] at hmem
      cases hmem
    · rw [hs] at h hmem
      simp only [isPart, Bool.and_eq_true, List.all_eq_true] at h
      rcases List.mem_cons.1 hmem with rfl | hmem
      · rw [hnone.1] at h
        cases h.1.1
      · have hrest := h.1.2 '.' hmem
        rw [hnone.1, hnone.2] at hrest
        cases hrest
  rw [isDotted, pieces_of_not_mem hdot, List.all_cons, h, List.all_nil, Bool.and_true]

/-- The alias of a module is the part of a name. -/
theorem isPart_moduleAlias {module : String} (h : isDotted module = true) :
    isPart (moduleAlias module).toList = true := by
  have hline : identifierStart.contains '_' = true := by decide +kernel
  have hdot : wordChars.contains '.' = false := by decide +kernel
  have hchars : (moduleAlias module).toList = '_' :: module.toList.map wordOrUnderscore := by
    simp [moduleAlias, String.toList_append]
  have hkeyword : keywords.contains (String.ofList ('_' :: module.toList.map wordOrUnderscore)) =
      false := by
    have hstart : ∀ k ∈ keywords, k.toList.head? ≠ some '_' := by decide +kernel
    rw [← Bool.not_eq_true, List.contains_iff_mem]
    intro hmem
    exact hstart _ hmem (by rw [String.toList_ofList]; rfl)
  have hrest : ∀ d ∈ module.toList.map wordOrUnderscore,
      (identifierStart.contains d || identifierContinue.contains d) = true := by
    intro d hd
    obtain ⟨c, hc, rfl⟩ := List.mem_map.1 hd
    unfold wordOrUnderscore
    split_ifs with hword
    · have hname := Lexer.isNameChar_dotted h hc
      have hne : c ≠ '.' := by
        rintro rfl
        rw [hdot] at hword
        cases hword
      simpa [Lexer.isNameChar, hne] using hname
    · rw [hline, Bool.true_or]
  rw [hchars, isPart, hline, List.all_eq_true.2 hrest, hkeyword]
  rfl

theorem isDotted_qualified {module path : String} (hmodule : isDotted module = true)
    (hpath : isDotted path = true) : isDotted (Ledger.qualified module path) = true := by
  have hchars : (Ledger.qualified module path).toList =
      (moduleAlias module).toList ++ '.' :: path.toList := by
    simp [Ledger.qualified, String.toList_append]
  exact isDotted_append hchars (isDotted_of_isPart (isPart_moduleAlias hmodule)) hpath

end Text

/-- Whether the name of what is mentioned can stand in an expression. -/
def World.Namable (w : World) : Mention → Prop
  | .cls c => w.Dotted c
  | .form _ | .builtin _ => True

theorem Ledger.Names.isDotted {L : Ledger} {p : Place} {s : String} (h : L.Names p s)
    (hmodule : Text.isDotted p.module = true) (hpath : Text.isDotted p.path = true) :
    Text.isDotted s = true := by
  cases h with
  | bound => exact hpath
  | qualified => exact Text.isDotted_qualified hmodule hpath

theorem Ledger.Settled.isDotted_nameOf {w : World} {L : Ledger} {m : Mention} (h : L.Settled w m)
    (hnamable : w.Namable m) : Text.isDotted (L.nameOf w m) = true := by
  have hforms : Text.isDotted "typing" = true ∧ ∀ n ∈ typingForms, Text.isDotted n = true := by
    decide +kernel
  rcases hp : w.placeOf? m with _ | p
  · have hown : L.nameOf w m = m.ownName := by rw [nameOf, hp]
    rw [hown]
    cases m with
    | cls c => exact hnamable.path
    | form n => cases hp
    | builtin n =>
      have hall : ∀ n ∈ builtinNames, Text.isDotted n = true := by decide +kernel
      exact hall n h.met
  · have hplace : Text.isDotted p.module = true ∧ Text.isDotted p.path = true := by
      cases m with
      | cls c =>
        unfold World.placeOf? at hp
        dsimp only at hp
        split_ifs at hp
        · cases hp
          exact ⟨hforms.1, hforms.2 "Any" (by decide)⟩
        · cases hp
          simp [World.place, hnamable.global, hnamable.module, hnamable.path]
      | form n =>
        cases hp
        exact ⟨hforms.1, hforms.2 n h.met⟩
      | builtin n => cases hp
    exact (h.names p hp).isDotted hplace.1 hplace.2

/-! The text of an expression. -/

/-- A phrase is the text of an expression in given names, when what it mentions has dotted names. -/
def Phrase.Renders (w : World) (name : Mention → String) (p : Phrase) (e : TypeSyntax Head) : Prop :=
  (∀ m ∈ p.mentions, w.Namable m → Text.isDotted (name m) = true) →
    (e.map (Head.written name)).Legible ∧ (e.map (Head.written name)).written = p.text name

namespace TypeSyntax

theorem mapAll_eq {α β : Type} (f : α → β) (es : List (TypeSyntax α)) : mapAll f es = es.map (map f) := by
  induction es with
  | nil => rfl
  | cons e es ih => rw [mapAll, ih, List.map_cons]

theorem writtenAll_eq (es : List (TypeSyntax String)) : writtenAll es = es.map written := by
  induction es with
  | nil => rfl
  | cons e es ih => rw [writtenAll, ih, List.map_cons]

theorem allLegible_iff {es : List (TypeSyntax String)} : AllLegible es ↔ ∀ e ∈ es, e.Legible := by
  induction es with
  | nil => simp [AllLegible]
  | cons e es ih => simp [AllLegible, ih]

end TypeSyntax

namespace Phrase

variable {w : World} {name : Mention → String}

theorem renders_class {c : ClassId} (h : w.Dotted c) : Renders w name c.phrase c.expression := by
  intro hnames
  unfold ClassId.phrase ClassId.expression at *
  split_ifs at hnames ⊢ with hnone
  · exact ⟨trivial, by simp [TypeSyntax.map, TypeSyntax.written, text]⟩
  · exact ⟨hnames (.cls c) List.mem_cons_self h, by simp [TypeSyntax.map, TypeSyntax.written, text, Head.written]⟩

theorem mem_mentions_commas {ps : List Phrase} {p : Phrase} (hp : p ∈ ps) {m : Mention}
    (hm : m ∈ p.mentions) : m ∈ (commas ps).mentions := by
  induction ps with
  | nil => cases hp
  | cons q rest ih =>
    cases rest with
    | nil => simpa [commas, List.mem_singleton.1 hp] using hm
    | cons r rest =>
      rw [commas, mentions_append, mentions, List.mem_append]
      rcases List.mem_cons.1 hp with rfl | hp
      · exact Or.inl hm
      · exact Or.inr (ih hp)

section

variable {α : Type} {ts : List α} {phrase : α → Phrase} {expression : α → TypeSyntax Head}
  (h : ∀ t ∈ ts, Renders w name (phrase t) (expression t))

include h

theorem renders_commas 
    (hnames : ∀ m ∈ (commas (ts.map phrase)).mentions, w.Namable m → Text.isDotted (name m) = true) :
    TypeSyntax.AllLegible (TypeSyntax.mapAll (Head.written name) (ts.map expression)) ∧
      Text.commaList (TypeSyntax.writtenAll (TypeSyntax.mapAll (Head.written name) (ts.map expression))) =
        (commas (ts.map phrase)).text name := by
  have heach : ∀ t ∈ ts, ((expression t).map (Head.written name)).Legible ∧
      ((expression t).map (Head.written name)).written = (phrase t).text name := fun t ht =>
    h t ht fun m hm => hnames m (mem_mentions_commas (List.mem_map_of_mem ht) hm)
  constructor
  · rw [TypeSyntax.allLegible_iff, TypeSyntax.mapAll_eq, List.map_map]
    intro e he
    obtain ⟨t, ht, rfl⟩ := List.mem_map.1 he
    exact (heach t ht).1
  · rw [text_commas, TypeSyntax.mapAll_eq, TypeSyntax.writtenAll_eq, List.map_map, List.map_map,
      List.map_map]
    congr 1
    exact List.map_congr_left fun t ht => (heach t ht).2

theorem renders_list :
    Renders w name (.word "[" :: commas (ts.map phrase) ++ [.word "]"]) (.list (ts.map expression)) := by
  intro hnames
  obtain ⟨hlegible, htext⟩ := renders_commas h fun m hm => hnames m (by simp [mentions, hm])
  refine ⟨hlegible, ?_⟩
  rw [TypeSyntax.map, TypeSyntax.written, htext]
  simp [text, String.append_assoc]

theorem renders_bracketed (hts : ts ≠ []) {head : Mention} (hhead : w.Namable head) :
    Renders w name (bracketed [.mention head] (ts.map phrase))
      (.subscript (.mention head) (ts.map expression)) := by
  intro hnames
  have hword := hnames head (by simp [bracketed, mentions]) hhead
  obtain ⟨hlegible, htext⟩ := renders_commas h fun m hm => hnames m (by simp [bracketed, mentions, hm])
  refine ⟨⟨hword, ?_, hlegible⟩, ?_⟩
  · rw [TypeSyntax.mapAll_eq]
    simpa using hts
  · rw [TypeSyntax.map, TypeSyntax.written, ModelContracts.bracketed, htext, bracketed]
    simp [text, Head.written, String.append_assoc]

end

theorem renders_word {s : String} {e : TypeSyntax Head} (hlegible : (e.map (Head.written name)).Legible)
    (hwritten : (e.map (Head.written name)).written = s) : Renders w name [.word s] e :=
  fun _ => ⟨hlegible, by simp [hwritten, text]⟩

theorem renders_constant {v : Value} (h : w.Constant v) :
    Renders w name (w.literalPhrase v) v.expression := by
  intro hnames
  unfold World.Constant at h
  split at h
  · exact renders_word trivial rfl hnames
  · exact renders_word trivial rfl hnames
  · exact renders_word trivial rfl hnames
  · exact renders_word trivial rfl hnames
  · exact renders_word trivial rfl hnames
  · next owner mixin label raw =>
    obtain ⟨hdotted, howner, hlabel, -⟩ := h
    have hphrase : w.literalPhrase (.member owner mixin (some label) raw) =
        [.mention (.cls owner), .word ("." ++ label)] := by
      simp [World.literalPhrase, ClassId.memberPhrase, ClassId.phrase, howner]
    rw [hphrase] at hnames ⊢
    have hhead := hnames (.cls owner) List.mem_cons_self hdotted
    have hwhole : (name (.cls owner) ++ "." ++ label).toList =
        (name (.cls owner)).toList ++ '.' :: label.toList := by
      simp [String.toList_append]
    exact ⟨Text.isDotted_append hwhole hhead (Text.isDotted_of_isPart hlabel), by
      simp [Value.expression, TypeSyntax.map, TypeSyntax.written, Head.written, text, String.append_assoc]⟩
  · exact h.elim

mutual

/-- The phrase of a type is the text of its expression. -/
theorem renders_type {inside : Bool} : (t : TypeExpr) → w.Expressible inside t →
    Renders w name (w.typePhrase t) t.expression
  | .cls _, h => renders_class h
  | .annotated base _, h => renders_type base h
  | .union _ ts, h => by
    have hall := renders_types ts h.2
    unfold World.typePhrase TypeExpr.expression
    split_ifs with hoptional
    · have hne : ts.filter (!·.isNoneType) ≠ [] := by
        intro hnil
        simp [hnil] at hoptional
      rw [World.otherPhrases_eq, TypeExpr.otherExpressions_eq]
      exact renders_bracketed (fun t ht => hall t (List.mem_of_mem_filter ht)) hne trivial
    · rw [World.typePhrases_eq, TypeExpr.expressions_eq]
      exact renders_bracketed hall h.1 trivial
  | .literal vs, h => by
    obtain ⟨hvs, -, hconstants⟩ := h
    unfold World.typePhrase TypeExpr.expression
    rw [World.literalPhrases_eq]
    exact renders_bracketed (fun v hv => renders_constant (hconstants v hv)) hvs trivial
  | .generic _ origin args, h => by
    obtain ⟨hdotted, hform, hargs⟩ := h
    have hall := renders_types args hargs
    unfold World.typePhrase TypeExpr.expression
    rw [World.typePhrases_eq]
    dsimp only
    rcases hform with ⟨-, rfl⟩ | ⟨hargs, horigin, -⟩
    · exact renders_class hdotted
    · have hempty : args.isEmpty = false := by simpa using hargs
      rw [List.isEmpty_map, hempty, if_neg Bool.false_ne_true, if_neg Bool.false_ne_true,
        TypeExpr.expressions_eq, ClassId.phrase, if_neg horigin]
      exact renders_bracketed hall hargs hdotted
  | .ellipsis, _ => fun _ => ⟨trivial, by simp [TypeExpr.expression, TypeSyntax.map,
      TypeSyntax.written, World.typePhrase, text]⟩
  | .params ts, h => by
    unfold World.typePhrase TypeExpr.expression
    rw [World.typePhrases_eq, TypeExpr.expressions_eq]
    exact renders_list (renders_types ts h.2)
termination_by structural t => t

theorem renders_types {inside : Bool} : (ts : List TypeExpr) → w.AllExpressible inside ts →
    ∀ t ∈ ts, Renders w name (w.typePhrase t) t.expression
  | [], _ => nofun
  | t :: ts, h => by
    have hfirst := renders_type t h.1
    have hrest := renders_types ts h.2
    exact List.forall_mem_cons.2 ⟨hfirst, hrest⟩
termination_by structural ts => ts

end

end Phrase

end ModelContracts
