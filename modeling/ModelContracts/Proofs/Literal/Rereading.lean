import ModelContracts.Proofs.Expression.Rereading
import ModelContracts.Proofs.Literal.Meaning
import ModelContracts.Proofs.Reference.Annotations

/-!
Literals that are read again. A literal is an expression that names only what was recorded and makes the
value for which it was written. Of an enumeration, this is the member that its label names. `None`, texts and
truth values are written as they are, so that they never stand for a member that is not equal to them.
-/

namespace ModelContracts

open Ledger

namespace Value

/-- The same value or an equal one. -/
def Agrees (u v : Value) : Prop := u = v ∨ u.equal v = true

/-- A value whose literal does not depend on the type that is declared. -/
def isVerbatim : Value → Bool
  | .none | .bool _ => true
  | v => v.text?.isSome

/-- The enumeration of a member. -/
def enumeration? : Value → Option ClassId
  | .member owner .. => some owner
  | _ => Option.none

/-- What is a text is equal to the same values as the text, and to the text. -/
theorem equal_of_text {v : Value} {s : String} (h : v.text? = some s) :
    (∀ m, v.equal m = (Value.text s).equal m) ∧ (Value.text s).equal v = true := by
  unfold text? at h
  split at h
  next =>
    cases h
    exact ⟨fun _ => rfl, by simp [equal, atomsEqual, number?, text?]⟩
  next =>
    cases h
    refine ⟨fun m => ?_, by simp [equal, atomsEqual, number?, text?]⟩
    cases m <;> simp [equal, atomsEqual, number?, text?, octets?]
  next => cases h

theorem Agrees.text {v m : Value} {s : String} (h : v.Agrees m) (hv : v.text? = some s) :
    (Value.text s).Agrees m := by
  obtain ⟨hsame, hself⟩ := equal_of_text hv
  rcases h with rfl | h
  · exact Or.inr hself
  · exact Or.inr (hsame m ▸ h)

end Value

namespace World

variable (w : World)

/-- The enumeration with which a value is declared. -/
def declaredEnum? (declared : Option TypeExpr) : Option ClassId :=
  (declared.bind fun t => t.core.class?).filter w.isEnumeration

/-- A member of an enumeration that can be imported, with the label that names it. -/
inductive Labels : ClassId → Value → Prop
  | member {c : ClassId} {mixin : Mixin} {label : String} {raw : Value} (sayable : w.Sayable c)
    (named : c ≠ ClassId.noneType) (part : Text.isPart label.toList = true)
    (leads : w.member? c label = some (.member c mixin (some label) raw)) :
    Labels c (.member c mixin (some label) raw)

/-- A number or a class that has a literal of its own. -/
inductive Spelt : Value → Prop
  | int (n : Int) : Spelt (.int n)
  | number (owner : ClassId) (n : Int) : Spelt (.number owner n)
  | decimal {d : Number.Decimal} (h : ∀ negative signaling payload, d ≠ .nan negative signaling payload) :
    Spelt (.decimal d)
  | fraction {f : Number.Fraction} (h : f.den ≠ 0) : Spelt (.fraction f)
  | cls {c : ClassId} (sayable : w.Sayable c) (named : c ≠ ClassId.noneType) : Spelt (.type (.cls c))

/-- The literal of a value that is declared with a type stands for `m`. -/
def StandsFor (declared : Option TypeExpr) (v m : Value) : Prop :=
  if v.isVerbatim then v.Agrees m
  else match w.declaredEnum? declared with
    | some c => w.memberOf? c v = .ok m ∧ w.Labels c m
    | none => m = v ∧ (w.Spelt v ∨ ∃ c, w.derives c c = true ∧ w.Labels c v)

variable {w} {declared : Option TypeExpr} {v m : Value}

end World

section

variable {w : World} {declared : Option TypeExpr} {v m : Value}

theorem literal_of_text (declared : Option TypeExpr) {s : String} (h : v.text? = some s) :
    literal w declared v = pure (Text.quote s) ∧ w.spelledPhrase declared v = [.word (Text.quote s)] := by
  unfold literal World.spelledPhrase
  constructor
  · split
    · cases h
    · rw [h]
  · split
    · cases h
    · rw [h]

/-- All other values are written as members or by themselves. -/
theorem literal_of_not_verbatim (declared : Option TypeExpr) (h : v.isVerbatim = false) :
    literal w declared v = (literalEnum? w declared v).elim (plainLiteral w v) (fun c => enumText w c v) ∧
      w.spelledPhrase declared v =
        (literalEnum? w declared v).elim (World.plainPhrase v) fun c => w.enumPhrase c v := by
  have hcases : v ≠ .none ∧ (∀ b, v ≠ .bool b) ∧ v.text? = none := by
    unfold Value.isVerbatim at h
    split at h
    · cases h
    · cases h
    next hnone hbool => exact ⟨hnone, hbool, by simpa using h⟩
  obtain ⟨hnone, hbool, htext⟩ := hcases
  unfold literal World.spelledPhrase
  constructor
  · split
    · exact (hnone rfl).elim
    · rw [htext]
      dsimp only
      split
      · exact (hbool _ rfl).elim
      · cases literalEnum? w declared v <;> rfl
  · split
    · exact (hnone rfl).elim
    · rw [htext]
      dsimp only
      split
      · exact (hbool _ rfl).elim
      · cases literalEnum? w declared v <;> rfl

theorem verbatim_cases (h : v.isVerbatim = true) :
    v = .none ∨ (∃ b, v = .bool b) ∨ ∃ s, v.text? = some s := by
  unfold Value.isVerbatim at h
  split at h
  · exact Or.inl rfl
  · exact Or.inr (Or.inl ⟨_, rfl⟩)
  · exact Or.inr (Or.inr (Option.isSome_iff_exists.1 h))

namespace Emitting

/-- Every run succeeds and writes a phrase, with the names that each later ledger gives. -/
def Prints (w : World) (p : Phrase) (r : Emitting String) : Prop :=
  ∀ s, ∃ text t, r.run s = (.ok text, t) ∧ Grows w s.ledger t.ledger ∧
    ∀ L, Grows w t.ledger L → Written w L p text

namespace Prints

variable {p q : Phrase} {c : ClassId}

theorem pure {text : String} (h : ∀ L, Written w L p text) : Prints w p (pure text) :=
  fun s => ⟨text, s, rfl, .refl _, fun L _ => h L⟩

theorem cls (hc : w.Sayable c) : Prints w c.phrase (cls w c) := by
  intro s
  obtain ⟨text, l', hrun, hg, hw⟩ := Recording.className_written hc.placed s.ledger
  refine ⟨text, { s with ledger := l' }, ?_, hg, hw⟩
  unfold Emitting.cls recording
  simp only [ExceptT.run] at hrun ⊢
  rw [hrun]

theorem map {r : Emitting String} {f : String → String} (hr : Prints w p r)
    (hf : ∀ L text, Written w L p text → Written w L q (f text)) : Prints w q (do return f (← r)) := by
  intro s
  obtain ⟨text, t, hrun, hg, hw⟩ := hr s
  exact ⟨f text, t, by rw [run_bind_of_ok hrun, run_pure], hg, fun L hL => hf L text (hw L hL)⟩

theorem stockCall {shape : MarkerShape} {args : Emitting String} (hc : w.Sayable shape.kind)
    (hargs : Prints w p args) : Prints w (shape.callPhrase p) (stockCall w shape args) := by
  intro s
  obtain ⟨head, t, hhead, hg, hw⟩ := cls hc s
  obtain ⟨inner, u, hinner, hg', hw'⟩ := hargs t
  refine ⟨head ++ "(" ++ inner ++ ")", u, ?_, hg.trans hg', fun L hL =>
    (hw L (hg'.trans hL)).call (hw' L hL)⟩
  rw [ModelContracts.stockCall, run_bind_of_ok hhead, run_bind_of_ok hinner, run_pure]

end Prints

end Emitting

open Emitting

/-- A text is always written, for an expression that makes `m` or a value that is equal to it. -/
structure Yields (w : World) (r : Emitting String) (p : Phrase) (m : Value) : Prop where
  prints : Prints w p r
  makes : ∃ e u, p.Makes w e ∧ e.value? w = some u ∧ u.Agrees m

theorem yields_pure {text : String} {a : Atom Head} {u : Value} (hmakes : Phrase.Makes w [.word text] (.atom a))
    (hvalue : a.value? w = some u) (hagrees : u.Agrees m) : Yields w (pure text) [.word text] m where
  prints := .pure fun _ => .word text
  makes := ⟨.atom a, u, hmakes, hvalue, hagrees⟩

theorem yields_member {c : ClassId} (hm : w.memberOf? c v = .ok m) (hlabels : w.Labels c m) :
    Yields w (enumText w c v) (w.enumPhrase c v) m := by
  cases hlabels with
  | @member mixin label raw sayable named part leads =>
    refine ⟨?_, .atom (.name (.member c label)), _, ?_, leads, Or.inl rfl⟩
    · simp only [enumText, World.enumPhrase, hm]
      exact (Prints.cls sayable).map fun _ _ hhead => hhead.member (some label)
    · simp only [World.enumPhrase, hm]
      exact Phrase.makes_member sayable named part

theorem yields_constructed {c : ClassId} {s : String} (hc : w.Sayable c) (hnone : c ≠ ClassId.noneType)
    {u : Value} (hmake : w.make? c [.text s] = some u) (hagrees : u.Agrees m) :
    Yields w (constructed w c s) (World.constructedPhrase c s) m where
  prints := (Prints.cls hc).map fun _ _ hhead => hhead.call (.word _)
  makes := ⟨_, u, Phrase.makes_call hc hnone (.cons (Phrase.makes_text s) .nil), by
    simpa [Making.value?, Atom.value?] using hmake, hagrees⟩

theorem sayable_numbers : w.Sayable ClassId.decimal ∧ w.Sayable ClassId.fraction := by
  constructor
  · apply World.Dotted.sayable
    apply World.dotted_of_simple <;> decide +kernel
  · apply World.Dotted.sayable
    apply World.dotted_of_simple <;> decide +kernel

theorem yields_plain (h : w.Spelt v) : Yields w (plainLiteral w v) (World.plainPhrase v) v := by
  cases h with
  | int n => exact yields_pure (Phrase.makes_number n) rfl (Or.inl rfl)
  | number owner n =>
    refine yields_pure (Phrase.makes_number n) rfl (Or.inr ?_)
    simp [Value.equal, Value.atomsEqual, Value.number?, Magnitude.equal, Magnitude.zero]
  | decimal h =>
    refine yields_constructed sayable_numbers.1 (by decide) ?_ (Or.inl rfl)
    rw [World.make?, if_pos rfl]
    simp [Number.Decimal.ofText?_text h]
  | @fraction f h =>
    obtain ⟨g, hg, hequal⟩ := Number.Fraction.ofText?_text h
    refine yields_constructed (u := .fraction g) sayable_numbers.2 (by decide) ?_ (Or.inr ?_)
    · rw [World.make?, if_neg (by decide), if_pos rfl]
      simp [hg]
    · simp [Value.equal, Value.atomsEqual, Value.number?, Magnitude.equal, Magnitude.zero, hequal]
  | cls sayable named =>
    exact ⟨.cls sayable, _, _, Phrase.makes_class sayable named, rfl, Or.inl rfl⟩

theorem literalEnum?_eq :
    literalEnum? w declared v = (w.declaredEnum? declared).or v.enumeration? := by
  unfold literalEnum? World.declaredEnum?
  cases (declared.bind fun t => t.core.class?).filter w.isEnumeration with
  | some c => rfl
  | none => cases v <;> rfl

/-- What is written for a value makes what the value stands for. -/
theorem World.StandsFor.yields (h : w.StandsFor declared v m) :
    Yields w (literal w declared v) (w.spelledPhrase declared v) m := by
  unfold World.StandsFor at h
  split_ifs at h with hverbatim
  · rcases verbatim_cases hverbatim with rfl | ⟨b, rfl⟩ | ⟨s, hs⟩
    · exact yields_pure Phrase.makes_none rfl h
    · exact yields_pure (Phrase.makes_bool b) rfl h
    · obtain ⟨hliteral, hphrase⟩ := literal_of_text (w := w) declared hs
      rw [hliteral, hphrase]
      exact yields_pure (Phrase.makes_text s) rfl (h.text hs)
  · obtain ⟨hliteral, hphrase⟩ := literal_of_not_verbatim (w := w) declared
      (Bool.not_eq_true _ ▸ hverbatim)
    rw [hliteral, hphrase, literalEnum?_eq]
    cases hdeclared : w.declaredEnum? declared with
    | some c =>
      rw [hdeclared] at h
      exact yields_member h.1 h.2
    | none =>
      rw [hdeclared] at h
      obtain ⟨rfl, hspelt | ⟨c, hown, hlabels⟩⟩ := h
      · have hnone : m.enumeration? = none := by cases hspelt <;> rfl
        rw [hnone]
        exact yields_plain hspelt
      · have hself : m.enumeration? = some c ∧ w.memberOf? c m = .ok m := by
          cases hlabels
          exact ⟨rfl, if_pos hown⟩
        rw [hself.1]
        exact yields_member hself.2 hlabels

end

/-- The literal of a value is an expression that names what was recorded and makes a value that is equal
to what the value stands for. -/
theorem literal_reread {w : World} {declared : Option TypeExpr} {v m : Value}
    (h : w.StandsFor declared v m) (named : String → Option Char) (s : Emission) :
    ∃ text t u, (literal w declared v).run s = (.ok text, t) ∧
      w.Evaluates named t.ledger text u ∧ u.Agrees m := by
  obtain ⟨hprints, e, u, hmakes, hvalue, hagrees⟩ := h.yields
  obtain ⟨text, t, hrun, -, hwritten⟩ := hprints s
  exact ⟨text, t, u, hrun, hmakes.evaluates hvalue hwritten named, hagrees⟩

namespace Tones

def tone : ClassId := ⟨"app", "Tone", 0⟩

/-- A world with one enumeration, of a text and a number. -/
def world : World where
  classes := [{ id := tone, lineage := [tone, ClassId.enum, ClassId.object],
                members := [("DARK", .text "dark"), ("LIGHT", .int 2)] }]
  modules := [{ name := "app", attributes := [("Tone", .cls tone)] }]

def dark : Value := .member tone .plain (some "DARK") (.text "dark")
def light : Value := .member tone .plain (some "LIGHT") (.int 2)

/-- A number that is declared with the enumeration stands for its member. -/
theorem light_reread : world.StandsFor (some (.cls tone)) (.int 2) light ∧
    ∃ text t u, (literal world (some (.cls tone)) (.int 2)).run { ledger := {} } = (.ok text, t) ∧
      world.Evaluates (fun _ => none) t.ledger text u ∧ u.Agrees light :=
  have hdotted : world.Dotted tone := by
    apply World.dotted_of_simple <;> decide +kernel
  have hstands : world.StandsFor (some (.cls tone)) (.int 2) light :=
    ⟨by rfl, .member hdotted.sayable (by decide) (by decide +kernel) (by rfl)⟩
  ⟨hstands, literal_reread hstands _ _⟩

/-- The enumeration accepts the text, which is written as a text nevertheless, and no text is a member. The
class of `None` is written like `None`, which is no class. -/
theorem dark_verbatim : world.memberOf? tone (.text "dark") = .ok dark ∧
    (∃ text t, (literal world (some (.cls tone)) (.text "dark")).run { ledger := {} } = (.ok text, t) ∧
      ∀ u, world.Evaluates (fun _ => none) t.ledger text u → ¬ u.Agrees dark) ∧
    ∃ text t, (literal world none (.type (.cls ClassId.noneType))).run { ledger := {} } = (.ok text, t) ∧
      ∀ u, world.Evaluates (fun _ => none) t.ledger text u →
        ¬ u.Agrees (.type (.cls ClassId.noneType)) := by
  refine ⟨by rfl, ⟨_, _, rfl, fun u hu => ?_⟩, ⟨_, _, rfl, fun u hu => ?_⟩⟩
  · obtain ⟨e, hvalue, hread⟩ := hu.expression (b := .atom (.text "dark")) (by rfl)
    rcases e with (_ | _ | _ | _ | _) | _ <;> cases hread
    cases hvalue
    rintro (heq | hequal)
    · cases heq
    · cases hequal
  · obtain ⟨e, hvalue, hread⟩ := hu.expression (b := .atom .none) (by rfl)
    rcases e with (_ | _ | _ | _ | _) | _ <;> cases hread
    cases hvalue
    rintro (heq | hequal)
    · cases heq
    · cases hequal

end Tones

end ModelContracts
