import ModelContracts.Proofs.Expression.Tokens
import ModelContracts.Text.Pieces
import ModelContracts.TypeExpr.Spelled

/-!
The syntax of type expressions: names, constants, lists, and names with arguments in brackets. An
expression is read token after token, what is in brackets first. A written expression is read as what it
was written for.
-/

namespace ModelContracts

/-- A type expression as it is written, with the names that it is made of. -/
inductive TypeSyntax (α : Type) where
  | none
  | bool (b : Bool)
  | number (n : Int)
  | text (s : String)
  | octets (data : List UInt8)
  | name (a : α)
  | dots
  | list (items : List (TypeSyntax α))
  | subscript (head : α) (args : List (TypeSyntax α))

namespace Text

def keywords : List String :=
  ["False", "None", "True", "and", "as", "assert", "async", "await", "break", "class", "continue",
    "def", "del", "elif", "else", "except", "finally", "for", "from", "global", "if", "import", "in",
    "is", "lambda", "nonlocal", "not", "or", "pass", "raise", "return", "try", "while", "with", "yield"]

/-- A part of a dotted name. -/
def isPart : List Char → Bool
  | [] => false
  | c :: cs => identifierStart.contains c &&
      cs.all (fun d => identifierStart.contains d || identifierContinue.contains d) &&
        !keywords.contains (String.ofList (c :: cs))

def isDotted (s : String) : Bool := (pieces '.' s.toList).all isPart

theorem ne_constant_of_isDotted {s : String} (h : isDotted s = true) :
    s ≠ "None" ∧ s ≠ "True" ∧ s ≠ "False" := by
  have hconstants : ∀ c ∈ ["None", "True", "False"], isDotted c = false := by decide +kernel
  have hne : ∀ c ∈ ["None", "True", "False"], s ≠ c := by
    rintro c hc rfl
    rw [hconstants s hc] at h
    cases h
  simpa using hne

end Text

namespace TypeSyntax

variable {α β : Type}

mutual

def map (f : α → β) : TypeSyntax α → TypeSyntax β
  | .none => .none
  | .bool b => .bool b
  | .number n => .number n
  | .text s => .text s
  | .octets data => .octets data
  | .name a => .name (f a)
  | .dots => .dots
  | .list items => .list (mapAll f items)
  | .subscript head args => .subscript (f head) (mapAll f args)
termination_by structural e => e

def mapAll (f : α → β) : List (TypeSyntax α) → List (TypeSyntax β)
  | [] => []
  | e :: es => map f e :: mapAll f es
termination_by structural es => es

end

mutual

def written : TypeSyntax String → String
  | .none => "None"
  | .bool b => if b then "True" else "False"
  | .number n => toString n
  | .text s => Text.spell s
  | .octets data => Text.spellBytes data
  | .name s => s
  | .dots => "..."
  | .list items => "[" ++ Text.commaList (writtenAll items) ++ "]"
  | .subscript head args => bracketed head (writtenAll args)
termination_by structural e => e

def writtenAll : List (TypeSyntax String) → List String
  | [] => []
  | e :: es => written e :: writtenAll es
termination_by structural es => es

end

mutual

def tokens : TypeSyntax String → List Token
  | .none => [.word "None"]
  | .bool b => [.word (if b then "True" else "False")]
  | .number n => [.number n]
  | .text s => [.text s]
  | .octets data => [.octets data]
  | .name s => [.word s]
  | .dots => [.dots]
  | .list items => .opening :: (tokensAll items ++ [.closing])
  | .subscript head args => .word head :: .opening :: (tokensAll args ++ [.closing])
termination_by structural e => e

def tokensAll : List (TypeSyntax String) → List Token
  | [] => []
  | [e] => tokens e
  | e :: f :: es => tokens e ++ .comma :: tokensAll (f :: es)
termination_by structural es => es

end

mutual

/-- All names are dotted names, and what has brackets has arguments. -/
def Legible : TypeSyntax String → Prop
  | .name s => Text.isDotted s = true
  | .list items => AllLegible items
  | .subscript head args => Text.isDotted head = true ∧ args ≠ [] ∧ AllLegible args
  | _ => True
termination_by structural e => e

def AllLegible : List (TypeSyntax String) → Prop
  | [] => True
  | e :: es => Legible e ∧ AllLegible es
termination_by structural es => es

end

end TypeSyntax

/-! The tokens of what is written. -/

namespace Lexer

theorem isNameChar_of_starts {c : Char} (h : startsName c = true) : isNameChar c = true := by
  unfold startsName at h
  simp [isNameChar, h]

theorem isNameChar_part {p : List Char} (h : Text.isPart p = true) : ∃ c cs, p = c :: cs ∧
    startsName c = true ∧ ∀ d ∈ cs, isNameChar d = true := by
  cases p with
  | nil => cases h
  | cons c cs =>
    simp only [Text.isPart, Bool.and_eq_true] at h
    obtain ⟨⟨hstart, hrest⟩, -⟩ := h
    refine ⟨c, cs, rfl, hstart, fun d hd => ?_⟩
    rw [isNameChar, List.all_eq_true.1 hrest d hd, Bool.true_or]

theorem joined_parts {ps : List (List Char)} (hps : ps ≠ []) (h : ∀ p ∈ ps, Text.isPart p = true) :
    ∃ c cs, Text.joined '.' ps = c :: cs ∧ startsName c = true ∧ ∀ d ∈ cs, isNameChar d = true := by
  induction ps with
  | nil => exact (hps rfl).elim
  | cons p rest ih =>
    obtain ⟨c, cs, rfl, hc, hcs⟩ := isNameChar_part (h p List.mem_cons_self)
    cases rest with
    | nil => exact ⟨c, cs, rfl, hc, hcs⟩
    | cons q rest =>
      obtain ⟨d, ds, hjoined, hd, hds⟩ := ih (by simp) fun p hp => h p (List.mem_cons_of_mem _ hp)
      have hdot : isNameChar '.' = true := by simp [isNameChar]
      refine ⟨c, cs ++ '.' :: d :: ds, by rw [Text.joined, hjoined]; rfl, hc, fun e he => ?_⟩
      rcases List.mem_append.1 he with he | he
      · exact hcs e he
      · simp only [List.mem_cons] at he
        rcases he with rfl | rfl | he
        · exact hdot
        · exact isNameChar_of_starts hd
        · exact hds e he

/-- A dotted name begins like a name and goes on with characters of names. -/
theorem chars_dotted {s : String} (h : Text.isDotted s = true) : ∃ c cs, s.toList = c :: cs ∧
    startsName c = true ∧ ∀ d ∈ cs, isNameChar d = true := by
  have hjoined := joined_parts (Text.pieces_ne_nil '.' s.toList) (List.all_eq_true.1 h)
  rwa [Text.joined_pieces] at hjoined

theorem isNameChar_dotted {s : String} (h : Text.isDotted s = true) {c : Char} (hc : c ∈ s.toList) :
    isNameChar c = true := by
  obtain ⟨d, ds, hchars, hd, hds⟩ := chars_dotted h
  rw [hchars] at hc
  rcases List.mem_cons.1 hc with rfl | hc
  · exact isNameChar_of_starts hd
  · exact hds c hc

theorem lexes_dotted {s : String} (h : Text.isDotted s = true) : Lexes s.toList [.word s] := by
  obtain ⟨c, cs, hchars, hc, hcs⟩ := chars_dotted h
  have hword := lexes_word hc hcs
  rw [← hchars, String.ofList_toList] at hword
  exact hword

theorem lexes_constant {s : String} (h : s ∈ ["None", "True", "False"]) : Lexes s.toList [.word s] := by
  have hall : ∀ s ∈ ["None", "True", "False"], s.toList.head?.any startsName = true ∧
      s.toList.tail.all isNameChar = true := by
    decide +kernel
  obtain ⟨hhead, htail⟩ := hall s h
  rcases hs : s.toList with _ | ⟨c, cs⟩
  · rw [hs] at hhead
    cases hhead
  · rw [hs] at hhead htail
    have hword : Lexes (c :: cs) [.word (String.ofList (c :: cs))] :=
      lexes_word hhead (List.all_eq_true.1 htail)
    rw [← hs, String.ofList_toList] at hword
    rwa [← hs]

theorem lexes_dots : Lexes "...".toList [.dots] := by
  intro ts
  have hdot : startsName '.' = false := startsName_small (by decide)
  have hstart : start ts '.' = some ⟨ts, .dots 1⟩ := by
    simp [start, hdot, isQuote]
  refine ⟨⟨ts ++ [.dots], .between⟩, ?_, rfl⟩
  have hchars : "...".toList = ['.', '.', '.'] := rfl
  rw [hchars, run_cons, step, hstart]
  rfl

theorem lexes_squared {cs : List Char} {us vs : List Token} (hhead : Lexes cs us) {ds : List Char}
    (hinner : Lexes ds vs) :
    Lexes (cs ++ '[' :: (ds ++ [']'])) (us ++ .opening :: (vs ++ [.closing])) :=
  hhead.append (by decide) (hinner.append (by decide) .nil)

end Lexer

namespace TypeSyntax

mutual

theorem lexes_written : (e : TypeSyntax String) → e.Legible → Lexer.Lexes e.written.toList e.tokens
  | .none, _ => Lexer.lexes_constant (by decide)
  | .bool b, _ => by
    cases b
    · exact Lexer.lexes_constant (by decide)
    · exact Lexer.lexes_constant (by decide)
  | .number n, _ => Lexer.lexes_number n
  | .text s, _ => Lexer.lexes_text s
  | .octets data, _ => Lexer.lexes_octets data
  | .name _, h => Lexer.lexes_dotted h
  | .dots, _ => Lexer.lexes_dots
  | .list items, h => by
    have hinner := Lexer.lexes_squared .nil (lexes_writtenAll items h)
    have hchars : ("[" ++ Text.commaList (writtenAll items) ++ "]").toList =
        [] ++ '[' :: ((Text.commaList (writtenAll items)).toList ++ [']']) := by
      simp [String.toList_append]
    rw [written, tokens, hchars]
    exact hinner
  | .subscript head args, h => by
    obtain ⟨hhead, -, hargs⟩ := h
    have hwhole := Lexer.lexes_squared (Lexer.lexes_dotted hhead) (lexes_writtenAll args hargs)
    have hchars : (bracketed head (writtenAll args)).toList =
        head.toList ++ '[' :: ((Text.commaList (writtenAll args)).toList ++ [']']) := by
      simp [bracketed, String.toList_append]
    rw [written, tokens, hchars]
    exact hwhole
termination_by structural e => e

theorem lexes_writtenAll : (es : List (TypeSyntax String)) → AllLegible es →
    Lexer.Lexes (Text.commaList (writtenAll es)).toList (tokensAll es)
  | [], _ => Lexer.Lexes.nil
  | [e], h => lexes_written e h.1
  | e :: f :: es, h => by
    have hrest := lexes_writtenAll (f :: es) h.2
    have hcomma := (lexes_written e h.1).append (c := ',') (by decide)
      (Lexer.Lexes.append (c := ' ') .nil (by decide) hrest)
    have hchars : (Text.commaList (writtenAll (e :: f :: es))).toList =
        e.written.toList ++ ',' :: ([] ++ ' ' :: (Text.commaList (writtenAll (f :: es))).toList) := by
      simp [Text.commaList, writtenAll, String.intercalate_cons_cons, String.toList_append]
    rw [hchars]
    exact hcomma
termination_by structural es => es

end

/-! Reading tokens. -/

/-- What a word is by itself. -/
def ofWord (s : String) : Option (TypeSyntax String) :=
  if s = "None" then some .none
  else if s = "True" then some (.bool true)
  else if s = "False" then some (.bool false)
  else if Text.isDotted s then some (.name s)
  else Option.none

/-- Brackets that are open, with the name before them and what was read between commas. -/
structure Frame where
  head : Option String
  items : List (TypeSyntax String)

/-- The open brackets, the inner ones first, and the expression that was read last. -/
structure Reader where
  frames : List Frame
  last : Option (TypeSyntax String)

def Frame.whole (f : Frame) : TypeSyntax String :=
  match f.head with
  | some head => .subscript head f.items
  | Option.none => .list f.items

namespace Reader

def atom (r : Reader) (e : TypeSyntax String) : Option Reader :=
  if r.last.isSome then Option.none else some { r with last := some e }

def close : Reader → Option Reader
  | ⟨f :: rest, some e⟩ => some ⟨rest, some (Frame.whole { f with items := f.items ++ [e] })⟩
  | ⟨f :: rest, Option.none⟩ =>
    if f.head.isNone && f.items.isEmpty then some ⟨rest, some f.whole⟩ else Option.none
  | ⟨[], _⟩ => Option.none

def step (r : Reader) : Token → Option Reader
  | .word s => (ofWord s).bind r.atom
  | .number n => r.atom (.number n)
  | .text s => r.atom (.text s)
  | .octets data => r.atom (.octets data)
  | .dots => r.atom .dots
  | .opening =>
    match r.last with
    | Option.none => some ⟨⟨Option.none, []⟩ :: r.frames, Option.none⟩
    | some (.name s) => some ⟨⟨some s, []⟩ :: r.frames, Option.none⟩
    | some _ => Option.none
  | .comma =>
    match r.frames, r.last with
    | f :: rest, some e => some ⟨{ f with items := f.items ++ [e] } :: rest, Option.none⟩
    | _, _ => Option.none
  | .closing => r.close

def run (r : Reader) (ts : List Token) : Option Reader := ts.foldlM step r

def finish : Reader → Option (TypeSyntax String)
  | ⟨[], last⟩ => last
  | _ => Option.none

variable {r : Reader} {ts us : List Token} {t : Token}

theorem run_cons : r.run (t :: ts) = (r.step t).bind fun q => q.run ts := rfl

theorem run_append : r.run (ts ++ us) = (r.run ts).bind fun q => q.run us := by
  unfold run
  rw [List.foldlM_append]
  rfl

theorem ofWord_dotted {s : String} (h : Text.isDotted s = true) : ofWord s = some (.name s) := by
  obtain ⟨hnone, htrue, hfalse⟩ := Text.ne_constant_of_isDotted h
  simp [ofWord, hnone, htrue, hfalse, h]

end Reader

/-- An expression that is opened inside others is read as what was written. -/
def Reads (e : TypeSyntax String) : Prop :=
  ∀ frames, Reader.run ⟨frames, Option.none⟩ e.tokens = some ⟨frames, some e⟩

mutual

theorem reads_tokens : (e : TypeSyntax String) → e.Legible → e.Reads
  | .none, _ => fun _ => rfl
  | .bool b, _ => fun _ => by cases b <;> rfl
  | .number _, _ => fun _ => rfl
  | .text _, _ => fun _ => rfl
  | .octets _, _ => fun _ => rfl
  | .name s, h => fun frames => by
    rw [tokens, Reader.run_cons, Reader.step, Reader.ofWord_dotted h]
    rfl
  | .dots, _ => fun _ => rfl
  | .list [], _ => fun _ => rfl
  | .list (e :: es), h => fun frames => by
    have hinner := reads_tokensAll ⟨Option.none, []⟩ (e :: es) (by simp) h frames
    rw [tokens, Reader.run_cons]
    exact hinner
  | .subscript head args, h => fun frames => by
    obtain ⟨hhead, hargs, hall⟩ := h
    have hinner := reads_tokensAll ⟨some head, []⟩ args hargs hall frames
    have hopened : (Reader.run ⟨frames, Option.none⟩ [.word head, .opening]) =
        some ⟨⟨some head, []⟩ :: frames, Option.none⟩ := by
      rw [Reader.run_cons, Reader.step, Reader.ofWord_dotted hhead]
      rfl
    have hsplit : (TypeSyntax.subscript head args).tokens =
        [.word head, .opening] ++ (tokensAll args ++ [.closing]) := rfl
    rw [hsplit, Reader.run_append, hopened]
    exact hinner
termination_by structural e => e

/-- What stands between brackets is read to the bracket that closes them. -/
theorem reads_tokensAll (f : Frame) : (es : List (TypeSyntax String)) → es ≠ [] → AllLegible es →
    ∀ frames, Reader.run ⟨f :: frames, Option.none⟩ (tokensAll es ++ [.closing]) =
      some ⟨frames, some (Frame.whole { f with items := f.items ++ es })⟩
  | [], hes, _ => (hes rfl).elim
  | [e], _, h => fun frames => by
    have hread := reads_tokens e h.1 (f :: frames)
    rw [tokensAll, Reader.run_append, hread]
    rfl
  | e :: g :: es, _, h => fun frames => by
    have hread := reads_tokens e h.1 (f :: frames)
    have hrest := reads_tokensAll { f with items := f.items ++ [e] } (g :: es) (by simp) h.2 frames
    rw [tokensAll, List.append_assoc, Reader.run_append, hread, Option.bind_some, List.cons_append,
      Reader.run_cons, Reader.step, Option.bind_some, hrest]
    simp
termination_by structural es => es

end

/-- Reading a text as a type expression. -/
def read (s : String) : Option (TypeSyntax String) :=
  (Lexer.tokens? s).bind fun ts => (Reader.run ⟨[], Option.none⟩ ts).bind Reader.finish

/-- A written expression is read as what it was written for. -/
theorem read_written {e : TypeSyntax String} (h : e.Legible) : read e.written = some e := by
  have hread := reads_tokens e h []
  rw [read, Lexer.tokens?_of_lexes (lexes_written e h), Option.bind_some, hread, Option.bind_some,
    Reader.finish]

end TypeSyntax

end ModelContracts
