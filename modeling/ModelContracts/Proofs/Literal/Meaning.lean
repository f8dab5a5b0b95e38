import ModelContracts.Proofs.Expression.Writing
import ModelContracts.Proofs.Literal.Syntax
import ModelContracts.Proofs.Reference.Annotations
import ModelContracts.World.Import

/-!
The value that an expression makes, when each name is read as what it was written for. A class is a value,
so is the member of an enumeration that a label names, and calling a class makes a number or a marker. The
text of a phrase can be read as the expression of which it is the text.
-/

namespace ModelContracts

open Ledger

/-- What a name refers to, by itself or before a label. -/
def Head.subject : Head → Mention
  | .mention m => m
  | .member owner _ => .cls owner

def Head.value? (w : World) : Head → Option Value
  | .mention (.cls c) => some (.type (.cls c))
  | .mention _ => none
  | .member owner label => w.member? owner label

namespace Atom

def mentions : Atom Head → List Mention
  | .name a => [a.subject]
  | _ => []

def value? (w : World) : Atom Head → Option Value
  | .none => some .none
  | .bool b => some (.bool b)
  | .number n => some (.int n)
  | .text s => some (.text s)
  | .name a => a.value? w

end Atom

namespace World

variable (w : World)

/-- What a class makes of some arguments. -/
def make? (c : ClassId) (args : List Value) : Option Value :=
  if c = ClassId.decimal then
    match args with
    | [.text s] => (Number.Decimal.ofText? s).map .decimal
    | _ => none
  else if c = ClassId.fraction then
    match args with
    | [.text s] => (Number.Fraction.ofText? s).map .fraction
    | _ => none
  else (w.shape? c).bind fun shape => (Marker.make? c shape args).map Marker.toValue

end World

namespace Making

def mentions : Making Head → List Mention
  | .atom a => a.mentions
  | .call head args => head.subject :: args.flatMap Atom.mentions

def value? (w : World) : Making Head → Option Value
  | .atom a => a.value? w
  | .call (.mention (.cls c)) args => (args.mapM (Atom.value? w)).bind (w.make? c)
  | .call _ _ => none

end Making

/-- A class that goes by a dotted name, wherever it is found. One that is declared in a function goes by its
simple name. -/
structure World.Sayable (w : World) (c : ClassId) : Prop where
  own : w.placeOf? (.cls c) = none → Text.isDotted c.qualName = true
  found : ∀ p, w.placeOf? (.cls c) = some p → Text.isDotted p.module = true ∧ Text.isDotted p.path = true
  placed : w.Placed c

theorem World.Dotted.sayable {w : World} {c : ClassId} (h : w.Dotted c) : w.Sayable c where
  own _ := h.path
  found p hp := by
    have htyping : Text.isDotted "typing" = true ∧ Text.isDotted "Any" = true := by decide +kernel
    unfold World.placeOf? at hp
    dsimp only at hp
    split_ifs at hp
    · cases hp
      exact htyping
    · cases hp
      simp [World.place, h.global, h.module, h.path]
  placed := h.placed

theorem Ledger.Settled.isDotted_cls {w : World} {L : Ledger} {c : ClassId} (h : L.Settled w (.cls c))
    (hc : w.Sayable c) : Text.isDotted (L.nameOf w (.cls c)) = true := by
  rcases hp : w.placeOf? (.cls c) with _ | p
  · rw [nameOf, hp]
    exact hc.own hp
  · obtain ⟨hmodule, hpath⟩ := hc.found p hp
    exact (h.names p hp).isDotted hmodule hpath

/-- A phrase is the text of an expression with the names of what it mentions, when the classes have dotted
names. -/
structure Phrase.Makes (w : World) (p : Phrase) (e : Making Head) : Prop where
  mentions : ∀ m ∈ e.mentions, m ∈ p.mentions
  text : ∀ name : Mention → String,
    (∀ c, .cls c ∈ p.mentions → w.Sayable c → Text.isDotted (name (.cls c)) = true) →
      (e.map (Head.written name)).Legible ∧ (e.map (Head.written name)).written = p.text name

namespace Phrase

variable {w : World}

theorem makes_word {a : Atom Head} {s : String} (hmentions : a.mentions = [])
    (h : ∀ name, (a.map (Head.written name)).Legible ∧ (a.map (Head.written name)).written = s) :
    Makes w [.word s] (.atom a) where
  mentions m hm := by
    rw [Making.mentions, hmentions] at hm
    cases hm
  text name _ := by
    obtain ⟨hlegible, hwritten⟩ := h name
    exact ⟨hlegible, by simp [Making.map, Making.written, hwritten, Phrase.text]⟩

theorem makes_none : Makes w [.word "None"] (.atom .none) :=
  makes_word rfl fun _ => ⟨trivial, rfl⟩

theorem makes_bool (b : Bool) : Makes w [.word (if b then "True" else "False")] (.atom (.bool b)) :=
  makes_word rfl fun _ => ⟨trivial, rfl⟩

theorem makes_number (n : Int) : Makes w [.word (toString n)] (.atom (.number n)) :=
  makes_word rfl fun _ => ⟨trivial, rfl⟩

theorem makes_text (s : String) : Makes w [.word (Text.quote s)] (.atom (.text s)) :=
  makes_word rfl fun _ => ⟨trivial, rfl⟩

variable {c : ClassId}

theorem phrase_class (hnone : c ≠ ClassId.noneType) : c.phrase = [.mention (.cls c)] := if_neg hnone

theorem makes_class (hc : w.Sayable c) (hnone : c ≠ ClassId.noneType) :
    Makes w c.phrase (.atom (.name (.mention (.cls c)))) := by
  rw [phrase_class hnone]
  refine ⟨fun m hm => hm, fun name hnames => ⟨hnames c List.mem_cons_self hc, ?_⟩⟩
  simp [Making.map, Atom.map, Making.written, Atom.written, Head.written, Phrase.text]

theorem makes_member (hc : w.Sayable c) (hnone : c ≠ ClassId.noneType) {label : String}
    (hlabel : Text.isPart label.toList = true) :
    Makes w (c.memberPhrase (some label)) (.atom (.name (.member c label))) := by
  rw [ClassId.memberPhrase, phrase_class hnone]
  refine ⟨fun m hm => hm, fun name hnames => ?_⟩
  have hhead := hnames c List.mem_cons_self hc
  have hwhole : (name (.cls c) ++ "." ++ label).toList =
      (name (.cls c)).toList ++ '.' :: label.toList := by
    simp [String.toList_append]
  refine ⟨Text.isDotted_append hwhole hhead (Text.isDotted_of_isPart hlabel), ?_⟩
  simp [Making.map, Atom.map, Making.written, Atom.written, Head.written, Phrase.text, String.append_assoc]

section

variable {ps : List Phrase} {args : List (Atom Head)}

theorem mentions_arguments (h : List.Forall₂ (fun p a => Makes w p (.atom a)) ps args) {m : Mention}
    (hm : m ∈ args.flatMap Atom.mentions) : m ∈ (commas ps).mentions := by
  have heach : ∀ a ∈ args, ∃ p ∈ ps, Makes w p (.atom a) := by
    clear hm
    induction h with
    | nil => exact nofun
    | @cons p a ps args hp _ ih =>
      refine List.forall_mem_cons.2 ⟨⟨p, List.mem_cons_self, hp⟩, fun b hb => ?_⟩
      obtain ⟨q, hq, hmakes⟩ := ih b hb
      exact ⟨q, List.mem_cons_of_mem p hq, hmakes⟩
  obtain ⟨a, ha, hm⟩ := List.mem_flatMap.1 hm
  obtain ⟨p, hp, hmakes⟩ := heach a ha
  exact mem_mentions_commas hp (hmakes.mentions m hm)

theorem text_arguments (h : List.Forall₂ (fun p a => Makes w p (.atom a)) ps args)
    {name : Mention → String}
    (hnames : ∀ p ∈ ps, ∀ c, .cls c ∈ p.mentions → w.Sayable c → Text.isDotted (name (.cls c)) = true) :
    (∀ a ∈ args.map (Atom.map (Head.written name)), a.Legible) ∧
      (args.map (Atom.map (Head.written name))).map Atom.written = ps.map (text name) := by
  induction h with
  | nil => exact ⟨nofun, rfl⟩
  | cons hp _ ih =>
    obtain ⟨hfirst, hrest⟩ := List.forall_mem_cons.1 hnames
    obtain ⟨hlegible, hwritten⟩ := hp.text name hfirst
    obtain ⟨hall, htexts⟩ := ih hrest
    exact ⟨List.forall_mem_cons.2 ⟨hlegible, hall⟩, congrArg₂ List.cons hwritten htexts⟩

/-- The text of a class with arguments in brackets is a call. -/
theorem makes_call (hc : w.Sayable c) (hnone : c ≠ ClassId.noneType)
    (h : List.Forall₂ (fun p a => Makes w p (.atom a)) ps args) :
    Makes w (Phrase.call c.phrase (commas ps)) (.call (.mention (.cls c)) args) := by
  rw [phrase_class hnone]
  refine ⟨fun m hm => ?_, fun name hnames => ?_⟩
  · rcases List.mem_cons.1 hm with rfl | hm
    · exact List.mem_cons_self
    · have hinner := mentions_arguments h hm
      simp [Phrase.call, Phrase.mentions, hinner]
  · have hhead := hnames c List.mem_cons_self hc
    obtain ⟨hlegible, htexts⟩ := text_arguments h fun p hp d hm =>
      hnames d (by simp [Phrase.call, Phrase.mentions, mem_mentions_commas hp hm])
    refine ⟨⟨hhead, hlegible⟩, ?_⟩
    rw [Making.map, Making.written, htexts, ← text_commas]
    simp [Phrase.call, text, Head.written, String.append_assoc]

end

/-- A class with empty brackets is a call, too. -/
theorem makes_ownCall (hc : w.Sayable c) (hnone : c ≠ ClassId.noneType) :
    Makes w c.ownCallPhrase (.call (.mention (.cls c)) []) := by
  rw [ClassId.ownCallPhrase, phrase_class hnone]
  refine ⟨fun m hm => hm, fun name hnames => ⟨⟨hnames c List.mem_cons_self hc, nofun⟩, ?_⟩⟩
  simp [Making.map, Making.written, Text.commaList, Head.written, text, String.append_assoc]

end Phrase

/-- A text is read as an expression with the names of a ledger, which were recorded. -/
structure Making.Reread (w : World) (named : String → Option Char) (L : Ledger) (text : String)
    (e : Making Head) : Prop where
  names : ∀ m ∈ e.mentions, L.Settled w m
  read : Making.read named text = some (e.map (Head.written (L.nameOf w)))

/-- A text makes a value, when each name is read as what a ledger recorded for it. Later records change
nothing. -/
def World.Evaluates (w : World) (named : String → Option Char) (l : Ledger) (text : String) (u : Value) :
    Prop :=
  ∃ e : Making Head, e.value? w = some u ∧ ∀ L, Grows w l L → e.Reread w named L text

theorem Phrase.Makes.evaluates {w : World} {p : Phrase} {e : Making Head} {l : Ledger} {text : String}
    {u : Value} (h : p.Makes w e) (hvalue : e.value? w = some u)
    (htext : ∀ L, Grows w l L → Written w L p text) (named : String → Option Char) :
    w.Evaluates named l text u := by
  refine ⟨e, hvalue, fun L hL => ?_⟩
  have hwritten := htext L hL
  obtain ⟨hlegible, hphrase⟩ := h.text (L.nameOf w) fun c hc hsayable =>
    (hwritten.settled (.cls c) hc).isDotted_cls hsayable
  refine ⟨fun m hm => hwritten.settled m (h.mentions m hm), ?_⟩
  rw [hwritten.text, ← hphrase]
  exact Making.read_written hlegible

/-- What a text makes is the value of the expression as which it is read. -/
theorem World.Evaluates.expression {w : World} {named : String → Option Char} {l : Ledger} {text : String}
    {u : Value} {b : Making String} (h : w.Evaluates named l text u)
    (hread : Making.read named text = some b) :
    ∃ e : Making Head, e.value? w = some u ∧ e.map (Head.written (l.nameOf w)) = b := by
  obtain ⟨e, hvalue, hreread⟩ := h
  exact ⟨e, hvalue, Option.some.inj ((hreread l (.refl l)).read.symm.trans hread)⟩

end ModelContracts
