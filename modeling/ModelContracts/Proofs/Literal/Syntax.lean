import ModelContracts.Proofs.Expression.Syntax
import ModelContracts.Proofs.Number.Rereading
import ModelContracts.Proofs.Text.Quoting

/-!
The syntax of expressions that make values: constants, names, and names that are called with constants and
names. Texts stand in double quotes, with all the escapes that these allow. A written expression is read as
what it was written for.
-/

namespace ModelContracts

/-- A constant or a name. -/
inductive Atom (α : Type) where
  | none
  | bool (b : Bool)
  | number (n : Int)
  | text (s : String)
  | name (a : α)

/-- An expression that makes a value. -/
inductive Making (α : Type) where
  | atom (a : Atom α)
  | call (head : α) (args : List (Atom α))

namespace Atom

variable {α β : Type}

def map (f : α → β) : Atom α → Atom β
  | .none => .none
  | .bool b => .bool b
  | .number n => .number n
  | .text s => .text s
  | .name a => .name (f a)

def written : Atom String → String
  | .none => "None"
  | .bool b => if b then "True" else "False"
  | .number n => toString n
  | .text s => Text.quote s
  | .name s => s

def Legible : Atom String → Prop
  | .name s => Text.isDotted s = true
  | _ => True

end Atom

namespace Making

section

variable {α β : Type}

def map (f : α → β) : Making α → Making β
  | .atom a => .atom (a.map f)
  | .call head args => .call (f head) (args.map (Atom.map f))

end

def written : Making String → String
  | .atom a => a.written
  | .call head args => head ++ "(" ++ Text.commaList (args.map Atom.written) ++ ")"

/-- All names are dotted names. -/
def Legible : Making String → Prop
  | .atom a => a.Legible
  | .call head args => Text.isDotted head = true ∧ ∀ a ∈ args, a.Legible

/-! Tokens. -/

inductive Token where
  | word (s : String)
  | text (s : String)
  | opening
  | closing
  | comma

/-- In the middle of what a reader is. -/
inductive Mode where
  | between
  | word (cs : List Char)
  | inside (cs : List Char) (spot : Text.Spot)
  /-- Behind a text, where another quote would not begin a text of its own. -/
  | behind

structure Reader where
  tokens : List Token
  mode : Mode

namespace Reader

def delimiters : List Char := [' ', '(', ')', ',']

/-- A character of a name or of a number. -/
def isWordChar (c : Char) : Bool := Lexer.isNameChar c || c = '-'

/-- The token that a delimiter is. -/
def delimiter (c : Char) : List Token :=
  if c = '(' then [.opening] else if c = ')' then [.closing] else if c = ',' then [.comma] else []

/-- The reader where no token goes on. -/
def start (ts : List Token) (c : Char) : Option Reader :=
  if c ∈ delimiters then some ⟨ts ++ delimiter c, .between⟩
  else if c = '\"' then some ⟨ts, .inside [] .plain⟩
  else if isWordChar c then some ⟨ts, .word [c]⟩
  else none

/-- The reader after one more character; `named` gives the characters that have names. -/
def step (named : String → Option Char) : Reader → Char → Option Reader
  | ⟨ts, .between⟩, c => start ts c
  | ⟨ts, .word cs⟩, c =>
    if isWordChar c then some ⟨ts, .word (cs ++ [c])⟩
    else if c ∈ delimiters then start (ts ++ [.word (String.ofList cs)]) c
    else none
  | ⟨ts, .inside cs spot⟩, c =>
    match Text.Reading.next named cs spot c with
    | .going ds spot => some ⟨ts, .inside ds spot⟩
    | .closed ds => some ⟨ts ++ [.text (String.ofList ds)], .behind⟩
    | .broken => none
  | ⟨ts, .behind⟩, c => if c ∈ delimiters then start ts c else none

def run (named : String → Option Char) (r : Reader) (cs : List Char) : Option Reader :=
  cs.foldlM (step named) r

/-- The tokens at the end of what was read. -/
def finish : Reader → Option (List Token)
  | ⟨ts, .between⟩ | ⟨ts, .behind⟩ => some ts
  | ⟨ts, .word cs⟩ => some (ts ++ [.word (String.ofList cs)])
  | ⟨_, .inside ..⟩ => none

variable {named : String → Option Char} {r : Reader} {ts us : List Token} {c : Char} {cs ds : List Char}

theorem run_cons : run named r (c :: cs) = (step named r c).bind fun q => run named q cs := rfl

theorem run_append : run named r (cs ++ ds) = (run named r cs).bind fun q => run named q ds := by
  unfold run
  rw [List.foldlM_append]
  rfl

theorem start_delimiter (h : c ∈ delimiters) : start ts c = some ⟨ts ++ delimiter c, .between⟩ := if_pos h

theorem isWordChar_delimiter (h : c ∈ delimiters) : isWordChar c = false := by
  have hall : ∀ c ∈ delimiters, isWordChar c = false := by decide +kernel
  exact hall c h

theorem step_delimiter (h : c ∈ delimiters) (hr : r.finish = some ts) :
    step named r c = start ts c := by
  obtain ⟨us, mode⟩ := r
  cases mode with
  | between =>
    cases hr
    rfl
  | word cs =>
    cases hr
    simp [step, isWordChar_delimiter h, h]
  | behind =>
    cases hr
    exact if_pos h
  | inside => cases hr

/-- Some characters are read as tokens, the last of which may go on. -/
def Lexes (named : String → Option Char) (cs : List Char) (us : List Token) : Prop :=
  ∀ ts, ∃ r, run named ⟨ts, .between⟩ cs = some r ∧ r.finish = some (ts ++ us)

theorem Lexes.nil : Lexes named [] [] := fun ts => ⟨_, rfl, by simp [finish]⟩

theorem Lexes.append {vs : List Token} (h : Lexes named cs us) (hc : c ∈ delimiters)
    (h' : Lexes named ds vs) : Lexes named (cs ++ c :: ds) (us ++ (delimiter c ++ vs)) := by
  intro ts
  obtain ⟨r, hr, hfinish⟩ := h ts
  obtain ⟨q, hq, hlast⟩ := h' (ts ++ us ++ delimiter c)
  refine ⟨q, ?_, by rw [hlast]; simp⟩
  rw [run_append, hr, Option.bind_some, run_cons, step_delimiter hc hfinish, start_delimiter hc,
    Option.bind_some, hq]

theorem run_word (h : ∀ c ∈ cs, isWordChar c = true) :
    run named ⟨ts, .word ds⟩ cs = some ⟨ts, .word (ds ++ cs)⟩ := by
  induction cs generalizing ds with
  | nil => simp [run]
  | cons c cs ih =>
    obtain ⟨hc, hcs⟩ := List.forall_mem_cons.1 h
    rw [run_cons, step, if_pos hc, Option.bind_some, ih hcs, List.append_assoc, List.singleton_append]

theorem lexes_word (hne : cs ≠ []) (h : ∀ c ∈ cs, isWordChar c = true) :
    Lexes named cs [.word (String.ofList cs)] := by
  obtain ⟨c, cs, rfl⟩ := List.exists_cons_of_ne_nil hne
  obtain ⟨hc, hcs⟩ := List.forall_mem_cons.1 h
  have hdelimiter : c ∉ delimiters := fun hmem => by
    rw [isWordChar_delimiter hmem] at hc
    cases hc
  have hquote : c ≠ '\"' := by
    have hnot : isWordChar '\"' = false := by decide +kernel
    rintro rfl
    rw [hnot] at hc
    cases hc
  intro ts
  have hfirst : start ts c = some ⟨ts, .word [c]⟩ := by
    simp [start, hdelimiter, hquote, hc]
  refine ⟨⟨ts, .word (c :: cs)⟩, ?_, rfl⟩
  rw [run_cons, step, hfirst, Option.bind_some, run_word hcs, List.singleton_append]

/-- What is read between two quotes is one text. -/
theorem run_inside {s : List Char} {spot : Text.Spot}
    (h : Text.Reading.run named (.going cs spot) ds = some (s, [])) :
    run named ⟨ts, .inside cs spot⟩ ds = some ⟨ts ++ [.text (String.ofList s)], .behind⟩ := by
  induction ds generalizing cs spot with
  | nil => cases h
  | cons d ds ih =>
    rw [Text.Reading.run] at h
    rw [run_cons, step]
    cases hnext : Text.Reading.next named cs spot d with
    | going es spot =>
      rw [hnext] at h
      exact ih h
    | closed es =>
      rw [hnext, Text.Reading.run_closed] at h
      cases h
      rfl
    | broken =>
      rw [hnext] at h
      cases ds <;> cases h

theorem lexes_text (s : String) : Lexes named (Text.quote s).toList [.text s] := by
  intro ts
  have hread : Text.Reading.run named (.going [] .plain)
      (s.toList.flatMap Text.escaped ++ ['\"']) = some (s.toList, []) := by
    rw [Text.Reading.run_escaped, Text.Reading.run, Text.Reading.next, Text.Reading.plain, if_pos rfl,
      Text.Reading.run_closed, List.nil_append]
  have hopen : start ts '\"' = some ⟨ts, .inside [] .plain⟩ := by
    have hdelimiter : '\"' ∉ delimiters := by decide
    simp [start, hdelimiter]
  refine ⟨⟨ts ++ [.text s], .behind⟩, ?_, rfl⟩
  rw [Text.quote, String.toList_ofList, Text.quotedChars, List.cons_append, run_cons, step, hopen,
    Option.bind_some, run_inside hread, String.ofList_toList]

def tokens? (named : String → Option Char) (s : String) : Option (List Token) :=
  (run named ⟨[], .between⟩ s.toList).bind finish

theorem tokens?_of_lexes {s : String} (h : Lexes named s.toList us) : tokens? named s = some us := by
  obtain ⟨r, hr, hfinish⟩ := h []
  rw [tokens?, hr, Option.bind_some, hfinish, List.nil_append]

end Reader

end Making

/-! Expressions. -/

open Making.Reader

variable {named : String → Option Char}

namespace Atom

def token : Atom String → Making.Token
  | .none => .word "None"
  | .bool b => .word (if b then "True" else "False")
  | .number n => .word (toString n)
  | .text s => .text s
  | .name s => .word s

/-- What a word is by itself. A number has no zeros before it. -/
def ofWord (s : String) : Option (Atom String) :=
  if s = "None" then some .none
  else if s = "True" then some (.bool true)
  else if s = "False" then some (.bool false)
  else if Text.isDotted s then some (.name s)
  else ((Number.integer? s.toList).filter fun n => toString n = s).map .number

def ofToken? : Making.Token → Option (Atom String)
  | .word s => ofWord s
  | .text s => some (.text s)
  | _ => Option.none

theorem ofWord_dotted {s : String} (h : Text.isDotted s = true) : ofWord s = some (.name s) := by
  obtain ⟨hnone, htrue, hfalse⟩ := Text.ne_constant_of_isDotted h
  simp [ofWord, hnone, htrue, hfalse, h]

/-- The first character of a number starts no name. -/
theorem ofWord_number (n : Int) : ofWord (toString n) = some (.number n) := by
  obtain ⟨c, cs, hchars, hc⟩ : ∃ c cs, (toString n).toList = c :: cs ∧ c.toNat < 65 := by
    rw [Number.toList_toString, Number.signed]
    obtain ⟨d, ds, hdigits⟩ := List.exists_cons_of_ne_nil (Number.digitsOf_ne_nil n.natAbs)
    have hd := Number.isDigit_digitsOf n.natAbs d (by rw [hdigits]; exact List.mem_cons_self)
    split_ifs
    · exact ⟨'-', _, rfl, by decide⟩
    · exact ⟨d, ds, hdigits, Number.forall_isDigit (p := fun c => c.toNat < 65) (by decide) hd⟩
  have hdotted : Text.isDotted (toString n) = false := by
    rw [← Bool.not_eq_true]
    intro hdotted
    obtain ⟨d, ds, hname, hd, -⟩ := Lexer.chars_dotted hdotted
    rw [hchars] at hname
    cases hname
    rw [Lexer.startsName_small hc] at hd
    cases hd
  have hne : ∀ s ∈ ["None", "True", "False"], toString n ≠ s := by
    have hconstants : ∀ s ∈ ["None", "True", "False"], Number.integer? s.toList = Option.none := by
      decide
    rintro s hs rfl
    have hread := hconstants _ hs
    rw [Number.integer?_toString] at hread
    cases hread
  simp only [List.forall_mem_cons, List.not_mem_nil, false_imp_iff, implies_true, and_true] at hne
  rw [ofWord, if_neg hne.1, if_neg hne.2.1, if_neg hne.2.2, hdotted, if_neg Bool.false_ne_true,
    Number.integer?_toString]
  simp

theorem ofToken?_token {a : Atom String} (h : a.Legible) : ofToken? a.token = some a := by
  cases a with
  | none => rfl
  | bool b => cases b <;> rfl
  | number n => exact ofWord_number n
  | text s => rfl
  | name s => exact ofWord_dotted h

theorem lexes_dotted {s : String} (h : Text.isDotted s = true) : Lexes named s.toList [.word s] := by
  have hne : s.toList ≠ [] := by
    obtain ⟨c, cs, hchars, -⟩ := Lexer.chars_dotted h
    exact hchars ▸ List.cons_ne_nil c cs
  have hchars : ∀ c ∈ s.toList, isWordChar c = true := fun c hc => by
    simp [isWordChar, Lexer.isNameChar_dotted h hc]
  have hword : Lexes named _ _ := lexes_word hne hchars
  rwa [String.ofList_toList] at hword

theorem lexes_number (n : Int) : Lexes named (toString n).toList [.word (toString n)] := by
  have hdigits : ∀ c ∈ Number.digitsOf n.natAbs, isWordChar c = true := fun c hc =>
    Number.forall_isDigit (p := fun c => isWordChar c = true) (by decide +kernel)
      (Number.isDigit_digitsOf _ c hc)
  have hword : (toString n).toList ≠ [] ∧ ∀ c ∈ (toString n).toList, isWordChar c = true := by
    rw [Number.toList_toString, Number.signed]
    split_ifs
    · exact ⟨List.cons_ne_nil _ _, List.forall_mem_cons.2 ⟨by decide +kernel, hdigits⟩⟩
    · exact ⟨Number.digitsOf_ne_nil _, hdigits⟩
  have hlexes : Lexes named _ _ := lexes_word hword.1 hword.2
  rwa [String.ofList_toList] at hlexes

theorem lexes_constant {s : String} (h : s ∈ ["None", "True", "False"]) :
    Lexes named s.toList [.word s] := by
  have hall : ∀ s ∈ ["None", "True", "False"], s.toList ≠ [] ∧
      ∀ c ∈ s.toList, isWordChar c = true := by decide +kernel
  have hword : Lexes named _ _ := lexes_word (hall s h).1 (hall s h).2
  rwa [String.ofList_toList] at hword

theorem lexes_written {a : Atom String} (h : a.Legible) : Lexes named a.written.toList [a.token] := by
  cases a with
  | none => exact lexes_constant (by decide)
  | bool b => cases b <;> exact lexes_constant (by decide)
  | number n => exact lexes_number n
  | text s => exact lexes_text s
  | name s => exact lexes_dotted h

end Atom

namespace Making

/-- What stands in brackets, with the bracket that closes them. -/
def inner : List (Atom String) → List Token
  | [] => [.closing]
  | [a] => [a.token, .closing]
  | a :: b :: rest => a.token :: .comma :: inner (b :: rest)

def tokens : Making String → List Token
  | .atom a => [a.token]
  | .call head args => .word head :: .opening :: inner args

/-- The arguments before a closing bracket. A comma may follow the last of them. -/
def arguments? : List Token → Option (List (Atom String))
  | [.closing] => some []
  | [t, .closing] => (Atom.ofToken? t).map ([·])
  | t :: .comma :: rest => (Atom.ofToken? t).bind fun a => (arguments? rest).map (a :: ·)
  | _ => none

def ofTokens? : List Token → Option (Making String)
  | [t] => (Atom.ofToken? t).map .atom
  | .word s :: .opening :: rest =>
    if Text.isDotted s then (arguments? rest).map (.call s) else none
  | _ => none

/-- Reading a text as an expression that makes a value. -/
def read (named : String → Option Char) (s : String) : Option (Making String) :=
  (tokens? named s).bind ofTokens?

theorem lexes_inner (args : List (Atom String)) (h : ∀ a ∈ args, a.Legible) :
    Lexes named ((Text.commaList (args.map Atom.written)).toList ++ [')']) (inner args) := by
  induction args with
  | nil => exact Lexes.append (c := ')') .nil (by decide) .nil
  | cons a rest ih =>
    obtain ⟨ha, hrest⟩ := List.forall_mem_cons.1 h
    cases rest with
    | nil => exact (Atom.lexes_written ha).append (c := ')') (by decide) .nil
    | cons b rest =>
      have hcomma : Lexes named _ _ := (Atom.lexes_written ha).append (c := ',') (by decide)
        (Lexes.append (c := ' ') .nil (by decide) (ih hrest))
      have hchars : (Text.commaList ((a :: b :: rest).map Atom.written)).toList ++ [')'] =
          a.written.toList ++ ',' :: ([] ++ ' ' ::
            ((Text.commaList ((b :: rest).map Atom.written)).toList ++ [')'])) := by
        simp [Text.commaList, String.intercalate_cons_cons, String.toList_append]
      rw [hchars]
      exact hcomma

theorem lexes_written {e : Making String} (h : e.Legible) : Lexes named e.written.toList e.tokens := by
  cases e with
  | atom a => exact Atom.lexes_written h
  | call head args =>
    have hwhole : Lexes named _ _ := (Atom.lexes_dotted h.1).append (c := '(') (by decide)
      (lexes_inner args h.2)
    have hchars : (Making.call head args).written.toList =
        head.toList ++ '(' :: ((Text.commaList (args.map Atom.written)).toList ++ [')']) := by
      simp [written, String.toList_append]
    rw [hchars]
    exact hwhole

theorem arguments?_inner {args : List (Atom String)} (h : ∀ a ∈ args, a.Legible) :
    arguments? (inner args) = some args := by
  induction args with
  | nil => rfl
  | cons a rest ih =>
    obtain ⟨ha, hrest⟩ := List.forall_mem_cons.1 h
    have hfirst := Atom.ofToken?_token ha
    cases rest with
    | nil => simp [inner, arguments?, hfirst]
    | cons b rest => simp [inner, arguments?, hfirst, ih hrest]

theorem ofTokens?_tokens {e : Making String} (h : e.Legible) : ofTokens? e.tokens = some e := by
  cases e with
  | atom a => simp [tokens, ofTokens?, Atom.ofToken?_token h]
  | call head args => simp [tokens, ofTokens?, h.1, arguments?_inner h.2]

/-- A written expression is read as what it was written for. -/
theorem read_written {e : Making String} (h : e.Legible) : read named e.written = some e := by
  rw [read, tokens?_of_lexes (lexes_written h), Option.bind_some, ofTokens?_tokens h]

end Making

end ModelContracts
