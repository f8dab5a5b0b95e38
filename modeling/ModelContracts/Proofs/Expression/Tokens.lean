import Mathlib.Algebra.GroupWithZero.Nat
import Mathlib.Tactic.SplitIfs
import ModelContracts.Text.Identifier
import ModelContracts.Text.Spelled

/-!
Tokens of type expressions: names, numbers, quoted texts and octets, dots, brackets and commas. They are
read one character after the other. What was read last may go on, as a name does, until a bracket, a comma
or a blank ends it. A spelled value is read as the value for which it was spelled.
-/

namespace ModelContracts

inductive Token where
  | word (s : String)
  | number (n : Int)
  | text (s : String)
  | octets (data : List UInt8)
  | dots
  | opening
  | closing
  | comma
deriving DecidableEq, Repr

/-- A quoted text or octets, as far as they were read. -/
structure Quoting where
  octets : Bool
  quote : Char
  chars : List Char
deriving DecidableEq

namespace Quoting

def push (q : Quoting) (c : Char) : Quoting := { q with chars := q.chars ++ [c] }

def token (q : Quoting) : Token :=
  if q.octets then .octets (q.chars.map fun c => UInt8.ofNat c.toNat)
  else .text (String.ofList q.chars)

end Quoting

/-- In the middle of what a reader is. -/
inductive Mode where
  | between
  | word (cs : List Char)
  | sign
  | number (negative : Bool) (n : Nat)
  | dots (n : Nat)
  | inside (q : Quoting)
  | escape (q : Quoting)
  /-- A character that is given by its number, of which some digits are left. -/
  | code (q : Quoting) (left n : Nat)

structure Lexer where
  tokens : List Token
  mode : Mode

namespace Lexer

def isQuote (c : Char) : Bool := c = '\'' || c = '\"'

def startsName (c : Char) : Bool := Text.identifierStart.contains c

/-- A character of a dotted name. -/
def isNameChar (c : Char) : Bool :=
  Text.identifierStart.contains c || Text.identifierContinue.contains c || c = '.'

def digit (c : Char) : Nat := c.toNat - '0'.toNat

def signed (negative : Bool) (n : Nat) : Int := if negative then -n else n

/-- The characters that a backslash and a letter stand for. -/
def escapes : List (Char × Char) :=
  [('\\', '\\'), ('\'', '\''), ('\"', '\"'), ('n', '\n'), ('r', '\r'), ('t', '\t'), ('b', '\x08'),
    ('f', '\x0c')]

def codes : List (Char × Nat) := [('x', 2), ('u', 4), ('U', 8)]

/-- The reader where no token goes on. -/
def start (ts : List Token) (c : Char) : Option Lexer :=
  if c = ' ' then some ⟨ts, .between⟩
  else if c = '[' then some ⟨ts ++ [.opening], .between⟩
  else if c = ']' then some ⟨ts ++ [.closing], .between⟩
  else if c = ',' then some ⟨ts ++ [.comma], .between⟩
  else if startsName c then some ⟨ts, .word [c]⟩
  else if isQuote c then some ⟨ts, .inside ⟨false, c, []⟩⟩
  else if c = '.' then some ⟨ts, .dots 1⟩
  else if c = '-' then some ⟨ts, .sign⟩
  else if c.isDigit then some ⟨ts, .number false (digit c)⟩
  else none

def escaped (ts : List Token) (q : Quoting) (c : Char) : Option Lexer :=
  match escapes.lookup c with
  | some d => some ⟨ts, .inside (q.push d)⟩
  | none => (codes.lookup c).bind fun width =>
    if q.octets && c ≠ 'x' then none else some ⟨ts, .code q width 0⟩

def step : Lexer → Char → Option Lexer
  | ⟨ts, .between⟩, c => start ts c
  | ⟨ts, .word cs⟩, c =>
    if isNameChar c then some ⟨ts, .word (cs ++ [c])⟩
    else if cs = ['b'] && isQuote c then some ⟨ts, .inside ⟨true, c, []⟩⟩
    else start (ts ++ [.word (String.ofList cs)]) c
  | ⟨ts, .sign⟩, c => if c.isDigit then some ⟨ts, .number true (digit c)⟩ else none
  | ⟨ts, .number negative n⟩, c =>
    if c.isDigit then some ⟨ts, .number negative (10 * n + digit c)⟩
    else start (ts ++ [.number (signed negative n)]) c
  | ⟨ts, .dots n⟩, c =>
    if c ≠ '.' then none
    else if n = 2 then some ⟨ts ++ [.dots], .between⟩
    else some ⟨ts, .dots (n + 1)⟩
  | ⟨ts, .inside q⟩, c =>
    if c = q.quote then some ⟨ts ++ [q.token], .between⟩
    else if c = '\\' then some ⟨ts, .escape q⟩
    else if c = '\n' then none
    else some ⟨ts, .inside (q.push c)⟩
  | ⟨ts, .escape q⟩, c => escaped ts q c
  | ⟨ts, .code q left n⟩, c => (Text.hexValue? c).bind fun d =>
    if left = 1 then some ⟨ts, .inside (q.push (Char.ofNat (n * 16 + d)))⟩
    else some ⟨ts, .code q (left - 1) (n * 16 + d)⟩

def run (l : Lexer) (cs : List Char) : Option Lexer := cs.foldlM step l

/-- The tokens at the end of what was read. -/
def finish : Lexer → Option (List Token)
  | ⟨ts, .between⟩ => some ts
  | ⟨ts, .word cs⟩ => some (ts ++ [.word (String.ofList cs)])
  | ⟨ts, .number negative n⟩ => some (ts ++ [.number (signed negative n)])
  | _ => none

def tokens? (s : String) : Option (List Token) := (run ⟨[], .between⟩ s.toList).bind finish

variable {l : Lexer} {ts us : List Token} {c : Char} {cs ds : List Char} {q : Quoting}

theorem run_nil : l.run [] = some l := rfl

theorem run_cons : l.run (c :: cs) = (l.step c).bind fun k => k.run cs := rfl

theorem run_append : l.run (cs ++ ds) = (l.run cs).bind fun k => k.run ds := by
  unfold run
  rw [List.foldlM_append]
  rfl

/-! What ends a name or a number. -/

def delimiters : List Char := [' ', '[', ']', ',']

theorem isNameChar_delimiter (h : c ∈ delimiters) : isNameChar c = false ∧ c.isDigit = false := by
  have hall : ∀ c ∈ delimiters, isNameChar c = false ∧ c.isDigit = false := by decide +kernel
  exact hall c h

theorem isQuote_delimiter (h : c ∈ delimiters) : isQuote c = false := by
  have hall : ∀ c ∈ delimiters, isQuote c = false := by decide
  exact hall c h

theorem step_delimiter (h : c ∈ delimiters) (hl : l.finish = some ts) : l.step c = start ts c := by
  obtain ⟨us, mode⟩ := l
  obtain ⟨hname, hdigit⟩ := isNameChar_delimiter h
  cases mode with
  | between =>
    cases hl
    rfl
  | word cs =>
    cases hl
    simp [step, hname, isQuote_delimiter h]
  | number negative n =>
    cases hl
    simp [step, hdigit]
  | _ => cases hl

/-- The tokens that a delimiter stands for. -/
def delimiter (c : Char) : List Token :=
  if c = '[' then [.opening] else if c = ']' then [.closing] else if c = ',' then [.comma] else []

theorem start_delimiter (h : c ∈ delimiters) : start ts c = some ⟨ts ++ delimiter c, .between⟩ := by
  simp only [delimiters, List.mem_cons, List.not_mem_nil, or_false] at h
  rcases h with rfl | rfl | rfl | rfl <;> simp [start, delimiter]

/-- Some characters are read as tokens, the last of which may go on. -/
def Lexes (cs : List Char) (us : List Token) : Prop :=
  ∀ ts, ∃ l, run ⟨ts, .between⟩ cs = some l ∧ l.finish = some (ts ++ us)

theorem Lexes.nil : Lexes [] [] := fun ts => ⟨_, run_nil, by simp [finish]⟩

theorem Lexes.append {us vs : List Token} (h : Lexes cs us) (hc : c ∈ delimiters) (h' : Lexes ds vs) :
    Lexes (cs ++ c :: ds) (us ++ (delimiter c ++ vs)) := by
  intro ts
  obtain ⟨l, hl, hfinish⟩ := h ts
  obtain ⟨k, hk, hlast⟩ := h' (ts ++ us ++ delimiter c)
  refine ⟨k, ?_, by rw [hlast]; simp⟩
  rw [run_append, hl, Option.bind_some, run_cons, step_delimiter hc hfinish, start_delimiter hc,
    Option.bind_some, hk]

theorem tokens?_of_lexes {s : String} (h : Lexes s.toList us) : tokens? s = some us := by
  obtain ⟨l, hl, hfinish⟩ := h []
  rw [tokens?, hl, Option.bind_some, hfinish, List.nil_append]

/-! Names and numbers. -/

theorem startsName_small (h : c.toNat < 65) : startsName c = false := if_pos h

theorem lexes_word (hc : startsName c = true) (hcs : ∀ d ∈ cs, isNameChar d = true) :
    Lexes (c :: cs) [.word (String.ofList (c :: cs))] := by
  have hstart : ∀ ts, start ts c = some ⟨ts, .word [c]⟩ := by
    have hnone : ∀ d ∈ delimiters, startsName d = false := by decide +kernel
    have hne : ∀ d ∈ delimiters, c ≠ d := by
      rintro d hd rfl
      rw [hnone c hd] at hc
      cases hc
    intro ts
    simp only [delimiters, List.forall_mem_cons, List.not_mem_nil, false_imp_iff, implies_true,
      and_true] at hne
    simp [start, hne, hc]
  have hrest : ∀ ts ds, run ⟨ts, .word ds⟩ cs = some ⟨ts, .word (ds ++ cs)⟩ := by
    clear hc hstart
    induction cs with
    | nil => simp [run_nil]
    | cons d cs ih =>
      intro ts ds
      have hd := hcs d List.mem_cons_self
      rw [run_cons, step, if_pos hd, Option.bind_some, ih fun e he => hcs e (List.mem_cons_of_mem d he)]
      simp
  intro ts
  exact ⟨_, by rw [run_cons, step, hstart, Option.bind_some, hrest], rfl⟩

theorem start_digit (hc : c.isDigit = true) : start ts c = some ⟨ts, .number false (digit c)⟩ := by
  obtain ⟨hlow, hhigh⟩ := Char.isDigit_iff_toNat.1 hc
  have hne : ∀ d ∈ [' ', '[', ']', ',', '\'', '\"', '.', '-'], c ≠ d := by
    have hnone : ∀ d ∈ [' ', '[', ']', ',', '\'', '\"', '.', '-'], d.isDigit = false := by decide
    rintro d hd rfl
    rw [hnone c hd] at hc
    cases hc
  simp only [List.forall_mem_cons, List.not_mem_nil, false_imp_iff, implies_true, and_true] at hne
  have hbound : '9'.toNat = 57 := rfl
  simp [start, isQuote, hne, startsName_small (c := c) (by omega), hc]

theorem run_digits {negative : Bool} (hcs : ∀ d ∈ cs, d.isDigit = true) (n : Nat) :
    run ⟨ts, .number negative n⟩ cs = some ⟨ts, .number negative (Nat.ofDigitChars 10 cs n)⟩ := by
  induction cs generalizing n with
  | nil => rfl
  | cons d cs ih =>
    have hd := hcs d List.mem_cons_self
    rw [run_cons, step, if_pos hd, Option.bind_some, ih fun e he => hcs e (List.mem_cons_of_mem d he),
      Nat.ofDigitChars_cons, digit]

/-- The first digit of a number makes it what it is by itself. -/
theorem toDigits_cons (n : Nat) : ∃ d ds, Nat.toDigits 10 n = d :: ds ∧ d.isDigit = true ∧
    (∀ e ∈ ds, e.isDigit = true) ∧ Nat.ofDigitChars 10 ds (digit d) = n := by
  have hdigits : ∀ e ∈ Nat.toDigits 10 n, e.isDigit = true := fun e he =>
    Nat.isDigit_of_mem_toDigits (by decide) (by decide) he
  have hvalue : Nat.ofDigitChars 10 (Nat.toDigits 10 n) 0 = n :=
    Nat.ofDigitChars_toDigits (by decide) (by decide)
  rcases h : Nat.toDigits 10 n with _ | ⟨d, ds⟩
  · exact (Nat.toDigits_ne_nil h).elim
  · rw [h] at hdigits hvalue
    rw [Nat.ofDigitChars_cons, Nat.mul_zero, Nat.zero_add] at hvalue
    exact ⟨d, ds, rfl, hdigits d List.mem_cons_self, fun e he => hdigits e (List.mem_cons_of_mem d he),
      hvalue⟩

theorem lexes_number (n : Int) : Lexes (toString n).toList [.number n] := by
  intro ts
  rw [Int.toString_eq_repr, Int.repr_eq_if]
  split_ifs with hn
  · obtain ⟨d, ds, hdigits, hd, hds, hvalue⟩ := toDigits_cons n.toNat
    refine ⟨⟨ts, .number false n.toNat⟩, ?_, ?_⟩
    · rw [Nat.toList_repr, hdigits, run_cons, step, start_digit hd, Option.bind_some, run_digits hds,
        hvalue]
    · simp [finish, signed, Int.toNat_of_nonneg hn]
  · obtain ⟨d, ds, hdigits, hd, hds, hvalue⟩ := toDigits_cons (-n).toNat
    have hsign : start ts '-' = some ⟨ts, .sign⟩ := by
      simp [start, isQuote, startsName_small (c := '-') (by decide)]
    have hchars : ("-" ++ (-n).toNat.repr).toList = '-' :: d :: ds := by
      rw [String.toList_append, Nat.toList_repr, hdigits]
      rfl
    refine ⟨⟨ts, .number true (-n).toNat⟩, ?_, ?_⟩
    · rw [hchars, run_cons, step, hsign, Option.bind_some, run_cons, step, if_pos hd, Option.bind_some,
        run_digits hds, hvalue]
    · have hback : -((-n).toNat : Int) = n := by omega
      rw [finish, signed, if_pos rfl, hback]

/-! Texts and octets. -/

theorem hexValue?_hexDigit {n : Nat} (h : n < 16) : Text.hexValue? (Text.hexDigit n) = some n := by
  have hall : ∀ n < 16, Text.hexValue? (Text.hexDigit n) = some n := by decide
  exact hall n h

theorem run_code (width left m n : Nat) (h : m < 16 ^ width) :
    run ⟨ts, .code q (width + left + 1) n⟩ (Text.hexChars width m) =
      some ⟨ts, .code q (left + 1) (n * 16 ^ width + m)⟩ := by
  induction width generalizing m left with
  | zero =>
    obtain rfl : m = 0 := by simpa using h
    simp [Text.hexChars, run_nil]
  | succ width ih =>
    have hhigh : m / 16 < 16 ^ width := by
      rw [Nat.div_lt_iff_lt_mul (by decide)]
      rwa [Nat.pow_succ] at h
    have hcount : width + 1 + left + 1 = width + (left + 1) + 1 := by omega
    have hvalue : (n * 16 ^ width + m / 16) * 16 + m % 16 = n * 16 ^ (width + 1) + m := by
      rw [Nat.pow_succ, Nat.add_mul, Nat.mul_assoc]
      omega
    rw [Text.hexChars, run_append, hcount, ih (left + 1) (m / 16) hhigh, Option.bind_some, run_cons, step,
      hexValue?_hexDigit (Nat.mod_lt m (by decide)), Option.bind_some, if_neg (by omega), hvalue]
    rfl

/-- A character that is given by its number is read as the character. -/
theorem run_hexChars (width : Nat) (h : c.toNat < 16 ^ (width + 1)) :
    run ⟨ts, .code q (width + 1) 0⟩ (Text.hexChars (width + 1) c.toNat) =
      some ⟨ts, .inside (q.push c)⟩ := by
  have hhigh : c.toNat / 16 < 16 ^ width := by
    rw [Nat.div_lt_iff_lt_mul (by decide)]
    rwa [Nat.pow_succ] at h
  have hvalue : c.toNat / 16 * 16 + c.toNat % 16 = c.toNat := Nat.div_add_mod' c.toNat 16
  have hcode : run ⟨ts, .code q (width + 0 + 1) 0⟩ (Text.hexChars width (c.toNat / 16)) =
      some ⟨ts, .code q (0 + 1) (0 * 16 ^ width + c.toNat / 16)⟩ := run_code width 0 _ 0 hhigh
  rw [Nat.add_zero, Nat.zero_mul, Nat.zero_add, Nat.zero_add] at hcode
  rw [Text.hexChars, run_append, hcode, Option.bind_some, run_cons, step,
    hexValue?_hexDigit (Nat.mod_lt _ (by decide)), Option.bind_some, if_pos rfl, hvalue,
    Char.ofNat_toNat, Option.bind_some, run_nil]

/-- Some characters between quotes are read as one character. -/
def Spells (q : Quoting) (cs : List Char) (c : Char) : Prop :=
  ∀ ts ds, run ⟨ts, .inside { q with chars := ds }⟩ cs = some ⟨ts, .inside { q with chars := ds ++ [c] }⟩

theorem spells_escape {d : Char} (hq : isQuote q.quote = true) (hd : escapes.lookup d = some c) :
    Spells q ['\\', d] c := by
  intro ts ds
  have hne : '\\' ≠ q.quote := by
    intro heq
    rw [← heq] at hq
    cases hq
  simp [run_cons, run_nil, step, hne, escaped, hd, Quoting.push]

theorem spells_code {d : Char} (width : Nat) (hq : isQuote q.quote = true)
    (hnone : escapes.lookup d = none) (hd : codes.lookup d = some (width + 1))
    (hallowed : q.octets = true → d = 'x') (hc : c.toNat < 16 ^ (width + 1)) :
    Spells q ('\\' :: d :: Text.hexChars (width + 1) c.toNat) c := by
  intro ts ds
  have hne : '\\' ≠ q.quote := by
    intro heq
    rw [← heq] at hq
    cases hq
  have hforbidden : (q.octets && d ≠ 'x') = false := by
    cases ho : q.octets with
    | false => rfl
    | true => simp [hallowed ho]
  rw [run_cons, step, if_neg hne, if_pos rfl, Option.bind_some, run_cons, step, escaped, hnone]
  dsimp only
  rw [hd, Option.bind_some, hforbidden, if_neg Bool.false_ne_true, Option.bind_some, run_hexChars width hc]
  rfl

theorem spells_self (hquote : c ≠ q.quote) (hslash : c ≠ '\\') (hline : c ≠ '\n') : Spells q [c] c := by
  intro ts ds
  simp [run_cons, run_nil, step, hquote, hslash, hline, Quoting.push]

theorem spells_spelledChar {quote : Char} (hq : isQuote quote = true) (c : Char) :
    Spells ⟨false, quote, []⟩ (Text.spelledChar quote c) c := by
  have hmarks : escapes.lookup 'n' = some '\n' ∧ escapes.lookup 'r' = some '\r' ∧
      escapes.lookup 't' = some '\t' := by decide
  have hcodes : ∀ d ∈ ['x', 'u', 'U'], escapes.lookup d = none := by decide
  unfold Text.spelledChar
  split_ifs with hself hline hreturn htab hplain hshort hmiddle
  · refine spells_escape hq ?_
    rcases hself with rfl | rfl
    · simp only [isQuote, Bool.or_eq_true, decide_eq_true_eq] at hq
      rcases hq with rfl | rfl <;> rfl
    · rfl
  · exact hline ▸ spells_escape hq hmarks.1
  · exact hreturn ▸ spells_escape hq hmarks.2.1
  · exact htab ▸ spells_escape hq hmarks.2.2
  · rw [not_or] at hself
    exact spells_self hself.1 hself.2 hline
  · exact spells_code 1 hq (hcodes 'x' (by decide)) rfl nofun (by simpa using hshort)
  · exact spells_code 3 hq (hcodes 'u' (by decide)) rfl nofun (by simpa using hmiddle)
  · refine spells_code 7 hq (hcodes 'U' (by decide)) rfl nofun ?_
    have hvalid : c.toNat < 0xD800 ∨ 0xDFFF < c.toNat ∧ c.toNat < 0x110000 := c.valid
    omega

theorem run_flatMap {α : Type} {spelled : α → List Char} {char : α → Char}
    (h : ∀ a, Spells q (spelled a) (char a)) (as : List α) (ts : List Token) (ds : List Char) :
    run ⟨ts, .inside { q with chars := ds }⟩ (as.flatMap spelled) =
      some ⟨ts, .inside { q with chars := ds ++ as.map char }⟩ := by
  induction as generalizing ds with
  | nil => simp [run_nil]
  | cons a as ih =>
    rw [List.flatMap_cons, run_append, h a, Option.bind_some, ih]
    simp

/-- The closing quote ends what is quoted. -/
theorem run_quoted {α : Type} {spelled : α → List Char} {char : α → Char} {octets : Bool}
    {quote : Char} (h : ∀ a, Spells ⟨octets, quote, []⟩ (spelled a) (char a)) (as : List α)
    (ts : List Token) : run ⟨ts, .inside ⟨octets, quote, []⟩⟩ (as.flatMap spelled ++ [quote]) =
      some ⟨ts ++ [Quoting.token ⟨octets, quote, as.map char⟩], .between⟩ := by
  have hinner := run_flatMap h as ts []
  dsimp only at hinner
  rw [run_append, hinner, Option.bind_some, run_cons, step, if_pos rfl, Option.bind_some, run_nil,
    List.nil_append]

theorem isQuote_spellingQuote (cs : List Char) : isQuote (Text.spellingQuote cs) = true := by
  unfold Text.spellingQuote
  split_ifs <;> rfl

theorem start_quote (hc : isQuote c = true) : start ts c = some ⟨ts, .inside ⟨false, c, []⟩⟩ := by
  have hnames : startsName '\'' = false ∧ startsName '\"' = false :=
    ⟨startsName_small (by decide), startsName_small (by decide)⟩
  simp only [isQuote, Bool.or_eq_true, decide_eq_true_eq] at hc
  rcases hc with rfl | rfl
  · simp [start, hnames.1, isQuote]
  · simp [start, hnames.2, isQuote]

theorem lexes_text (s : String) : Lexes (Text.spell s).toList [.text s] := by
  intro ts
  have hq := isQuote_spellingQuote s.toList
  have hrun := run_quoted (fun c => spells_spelledChar hq c) s.toList ts
  refine ⟨⟨ts ++ [.text s], .between⟩, ?_, rfl⟩
  rw [Text.spell, String.toList_ofList, List.cons_append, run_cons, step, start_quote hq,
    Option.bind_some, hrun]
  simp [Quoting.token]

theorem toNat_octet (b : UInt8) : (Char.ofNat b.toNat).toNat = b.toNat := by
  have hbound := b.toNat_lt
  have hvalid : b.toNat.isValidChar := Or.inl (by omega)
  rw [Char.ofNat, dif_pos hvalid]
  rfl

theorem spells_spelledOctet {quote : Char} (hq : isQuote quote = true) (b : UInt8) :
    Spells ⟨true, quote, []⟩ (Text.spelledOctet [quote] b) (Char.ofNat b.toNat) := by
  have hmarks : escapes.lookup 'n' = some '\n' ∧ escapes.lookup 'r' = some '\r' ∧
      escapes.lookup 't' = some '\t' := by decide
  unfold Text.spelledOctet
  dsimp only
  split_ifs with hself hline hreturn htab hplain
  · refine spells_escape hq ?_
    rcases hself with hself | hself
    · rw [List.contains_iff_mem, List.mem_singleton] at hself
      rw [hself]
      simp only [isQuote, Bool.or_eq_true, decide_eq_true_eq] at hq
      rcases hq with rfl | rfl <;> rfl
    · rw [hself]
      rfl
  · exact hline ▸ spells_escape hq hmarks.1
  · exact hreturn ▸ spells_escape hq hmarks.2.1
  · exact htab ▸ spells_escape hq hmarks.2.2
  · rw [not_or, List.contains_iff_mem, List.mem_singleton] at hself
    exact spells_self hself.1 hself.2 hline
  · have hcode := spells_code (c := Char.ofNat b.toNat) (d := 'x') (q := ⟨true, quote, []⟩) 1
      hq (by decide) rfl (fun _ => rfl) (by rw [toNat_octet]; exact b.toNat_lt)
    rwa [toNat_octet] at hcode

theorem lexes_octets (data : List UInt8) : Lexes (Text.spellBytes data).toList [.octets data] := by
  intro ts
  have hq : isQuote (Text.octetQuote data) = true := isQuote_spellingQuote _
  have hrun := run_quoted (fun b => spells_spelledOctet hq b) data ts
  have hname : startsName 'b' = true := by decide +kernel
  have hnot : isNameChar (Text.octetQuote data) = false := by
    have hquotes : isNameChar '\'' = false ∧ isNameChar '\"' = false := by decide +kernel
    generalize Text.octetQuote data = quote at hq
    simp only [isQuote, Bool.or_eq_true, decide_eq_true_eq] at hq
    rcases hq with rfl | rfl
    · exact hquotes.1
    · exact hquotes.2
  have hstart : start ts 'b' = some ⟨ts, .word ['b']⟩ := by
    simp [start, hname]
  have hdata : data.map (fun b => UInt8.ofNat (Char.ofNat b.toNat).toNat) = data := by
    simp [toNat_octet]
  refine ⟨⟨ts ++ [.octets data], .between⟩, ?_, rfl⟩
  rw [Text.spellBytes, String.toList_ofList, List.cons_append, List.cons_append, run_cons, step, hstart,
    Option.bind_some, run_cons, step, hnot, if_neg Bool.false_ne_true, hq]
  simp [hrun, Quoting.token, Function.comp_def, hdata]

end Lexer

end ModelContracts
