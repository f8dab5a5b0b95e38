import Mathlib.Data.List.Basic
import Mathlib.Logic.Function.Basic
import Mathlib.Tactic.SplitIfs
import ModelContracts.Proofs.Expression.Tokens
import ModelContracts.Proofs.Source.Stamped
import ModelContracts.Proofs.Text.Pieces

/-!
Texts in double quotes, read back. The reader knows every escape that may stand between the quotes: the
marks, numbers in octal and hexadecimal digits, named characters and joined lines. A quoted text holds
neither a control nor a quote that would end it, so it is read as what was quoted and stays in the line
in which it is put.
-/

namespace ModelContracts.Text

/-- Where a reader stands between two quotes. -/
inductive Spot where
  | plain
  | slash
  /-- Behind a joined return, which takes a line feed with it. -/
  | joined
  | octal (left n : Nat)
  | code (left n : Nat)
  | brace
  | name (cs : List Char)

/-- What was read between two quotes. -/
inductive Reading where
  | going (cs : List Char) (spot : Spot)
  | closed (cs : List Char)
  | broken

namespace Reading

/-- The characters that a backslash and a mark stand for. -/
def marks : List (Char × Char) :=
  [('\\', '\\'), ('\'', '\''), ('\"', '\"'), ('a', '\x07'), ('b', '\x08'), ('f', '\x0c'), ('n', '\n'),
    ('r', '\r'), ('t', '\t'), ('v', '\x0b')]

/-- How many hexadecimal digits follow a backslash and a letter. -/
def widths : List (Char × Nat) := [('x', 2), ('u', 4), ('U', 8)]

def octalValue? (c : Char) : Option Nat :=
  if '0' ≤ c ∧ c ≤ '7' then some (c.toNat - 48) else none

def plain (cs : List Char) (c : Char) : Reading :=
  if c = '\"' then .closed cs
  else if c = '\\' then .going cs .slash
  else if c = '\n' ∨ c = '\r' ∨ c = '\x00' then .broken
  else .going (cs ++ [c]) .plain

/-- A character that is given by its number. Surrogates and numbers beyond the last character are
refused. -/
def numbered (cs : List Char) (n : Nat) : Reading :=
  if n.isValidChar then .going (cs ++ [Char.ofNat n]) .plain else .broken

/-- A backslash before any other character stands for itself. -/
def slashed (cs : List Char) (c : Char) : Reading :=
  match marks.lookup c, widths.lookup c, octalValue? c with
  | some d, _, _ => .going (cs ++ [d]) .plain
  | none, some width, _ => .going cs (.code width 0)
  | none, none, some n => .going cs (.octal 2 n)
  | none, none, none =>
    if c = '\n' then .going cs .plain
    else if c = '\r' then .going cs .joined
    else if c = '\x00' then .broken
    else if c = 'N' then .going cs .brace
    else .going (cs ++ ['\\', c]) .plain

/-- The reader after one more character between the quotes; `named` gives the characters that have
names. -/
def next (named : String → Option Char) (cs : List Char) : Spot → Char → Reading
  | .plain, c => plain cs c
  | .slash, c => slashed cs c
  | .joined, c => if c = '\n' then .going cs .plain else plain cs c
  | .octal left n, c =>
    match octalValue? c with
    | none => plain (cs ++ [Char.ofNat n]) c
    | some d => if left = 1 then numbered cs (n * 8 + d) else .going cs (.octal (left - 1) (n * 8 + d))
  | .code left n, c =>
    match hexValue? c with
    | none => .broken
    | some d => if left = 1 then numbered cs (n * 16 + d) else .going cs (.code (left - 1) (n * 16 + d))
  | .brace, c => if c = '\x7b' then .going cs (.name []) else .broken
  | .name ds, c =>
    if c = '\x7d' then
      match named (String.ofList ds) with
      | some d => .going (cs ++ [d]) .plain
      | none => .broken
    else if c = '\"' ∨ c = '\n' ∨ c = '\r' then .broken
    else .going cs (.name (ds ++ [c]))

/-- The text up to the closing quote, and what follows it. -/
def run (named : String → Option Char) : Reading → List Char → Option (List Char × List Char)
  | .closed cs, rest => some (cs, rest)
  | .going cs spot, c :: rest => run named (next named cs spot c) rest
  | _, _ => none

variable {named : String → Option Char} {cs ds : List Char} {c : Char}

theorem run_closed (rest : List Char) : run named (.closed cs) rest = some (cs, rest) := by
  rw [run]

theorem run_slash (rest : List Char) : run named (.going cs .plain) ('\\' :: c :: rest) =
    run named (slashed cs c) rest := rfl

theorem run_code {d left n : Nat} (h : hexValue? c = some d) (rest : List Char) :
    run named (.going cs (.code (left + 2) n)) (c :: rest) =
      run named (.going cs (.code (left + 1) (n * 16 + d))) rest := by
  rw [run, next, h]
  dsimp only
  rw [if_neg (by omega)]
  rfl

/-- Some characters between the quotes are read as one. -/
def Spells (named : String → Option Char) (ds : List Char) (c : Char) : Prop :=
  ∀ cs rest, run named (.going cs .plain) (ds ++ rest) = run named (.going (cs ++ [c]) .plain) rest

theorem spells_mark {d : Char} (h : marks.lookup d = some c) : Spells named ['\\', d] c := by
  intro cs rest
  rw [List.cons_append, List.cons_append, List.nil_append, run_slash, slashed, h]

theorem spells_control (h : c.toNat < 32) : Spells named ('\\' :: 'u' :: hexChars 4 c.toNat) c := by
  intro cs rest
  have hdigits : hexChars 4 c.toNat = [hexDigit (c.toNat / 16 / 16 / 16 % 16),
      hexDigit (c.toNat / 16 / 16 % 16), hexDigit (c.toNat / 16 % 16), hexDigit (c.toNat % 16)] := rfl
  have hvalue : ∀ n, hexValue? (hexDigit (n % 16)) = some (n % 16) := fun n =>
    Lexer.hexValue?_hexDigit (Nat.mod_lt n (by decide))
  have hnumber : (((0 * 16 + c.toNat / 16 / 16 / 16 % 16) * 16 + c.toNat / 16 / 16 % 16) * 16 +
      c.toNat / 16 % 16) * 16 + c.toNat % 16 = c.toNat := by omega
  have hletter : slashed cs 'u' = .going cs (.code 4 0) := rfl
  simp only [hdigits, List.cons_append, List.nil_append]
  rw [run_slash, hletter, run_code (hvalue _), run_code (hvalue _), run_code (hvalue _), run, next,
    hvalue]
  dsimp only
  rw [if_pos rfl, hnumber, numbered, if_pos (Or.inl (by omega)), Char.ofNat_toNat]

theorem spells_self (hquote : c ≠ '\"') (hslash : c ≠ '\\') (h : 32 ≤ c.toNat) :
    Spells named [c] c := by
  have hcontrol : ∀ d ∈ ['\n', '\r', '\x00'], c ≠ d := by
    have hsmall : ∀ d ∈ ['\n', '\r', '\x00'], d.toNat < 32 := by decide
    rintro d hd rfl
    have := hsmall c hd
    omega
  simp only [List.forall_mem_cons, List.not_mem_nil, false_imp_iff, implies_true, and_true] at hcontrol
  intro cs rest
  simp [run, next, plain, hquote, hslash, hcontrol]

theorem spells_escaped (c : Char) : Spells named (escaped c) c := by
  unfold escaped
  split_ifs with hquote hslash hline hreturn htab hfeed hback hcontrol
  · subst hquote
    exact spells_mark rfl
  · subst hslash
    exact spells_mark rfl
  · subst hline
    exact spells_mark rfl
  · subst hreturn
    exact spells_mark rfl
  · subst htab
    exact spells_mark rfl
  · subst hfeed
    exact spells_mark rfl
  · subst hback
    exact spells_mark rfl
  · exact spells_control hcontrol
  · exact spells_self hquote hslash (Nat.not_lt.1 hcontrol)

theorem run_escaped (s rest cs : List Char) :
    run named (.going cs .plain) (s.flatMap escaped ++ rest) =
      run named (.going (cs ++ s) .plain) rest := by
  induction s generalizing cs with
  | nil => simp
  | cons c s ih => rw [List.flatMap_cons, List.append_assoc, spells_escaped c, ih, List.append_assoc,
      List.singleton_append]

end Reading

/-- A text in double quotes at the start of some characters, with what follows it. Three quotes would
open a text of several lines. -/
def readQuoted? (named : String → Option Char) : List Char → Option (List Char × List Char)
  | '\"' :: rest =>
    if rest.take 2 = ['\"', '\"'] then none else Reading.run named (.going [] .plain) rest
  | _ => none

/-- Every quote stands behind a backslash that is not itself escaped. -/
inductive Guarded : List Char → Prop
  | nil : Guarded []
  | plain {c : Char} {cs : List Char} (quote : c ≠ '\"') (slash : c ≠ '\\') (rest : Guarded cs) :
    Guarded (c :: cs)
  | pair {c : Char} {cs : List Char} (rest : Guarded cs) : Guarded ('\\' :: c :: cs)

/-- The lines of a source, whose ends may be written in three ways. -/
def sourceLines (cs : List Char) : List (List Char) := pieces '\n' (unixLines cs)

theorem hexChars_printable {n : Nat} (width : Nat) : ∀ c ∈ hexChars width n,
    32 ≤ c.toNat ∧ c ≠ '\"' ∧ c ≠ '\\' := by
  have hdigit : ∀ n < 16, 32 ≤ (hexDigit n).toNat ∧ hexDigit n ≠ '\"' ∧ hexDigit n ≠ '\\' := by decide
  induction width generalizing n with
  | zero => exact nofun
  | succ width ih =>
    intro c hc
    rw [hexChars, List.mem_append, List.mem_singleton] at hc
    rcases hc with hc | rfl
    · exact ih c hc
    · exact hdigit _ (Nat.mod_lt n (by decide))

theorem escaped_printable (c : Char) : ∀ d ∈ escaped c, 32 ≤ d.toNat := by
  unfold escaped
  split_ifs with hquote hslash hline hreturn htab hfeed hback hcontrol
  · decide
  · decide
  · decide
  · decide
  · decide
  · decide
  · decide
  · intro d hd
    rw [List.mem_cons, List.mem_cons] at hd
    rcases hd with rfl | rfl | hd
    · decide
    · decide
    · exact (hexChars_printable 4 d hd).1
  · intro d hd
    rw [List.mem_singleton.1 hd]
    exact Nat.not_lt.1 hcontrol

theorem Guarded.append {cs ds : List Char} (h : Guarded cs) (h' : Guarded ds) : Guarded (cs ++ ds) := by
  induction h with
  | nil => exact h'
  | plain quote slash _ ih => exact .plain quote slash ih
  | pair _ ih => exact .pair ih

theorem guarded_of_forall {cs : List Char} (h : ∀ c ∈ cs, c ≠ '\"' ∧ c ≠ '\\') : Guarded cs := by
  induction cs with
  | nil => exact .nil
  | cons c cs ih =>
    obtain ⟨hc, hcs⟩ := List.forall_mem_cons.1 h
    exact .plain hc.1 hc.2 (ih hcs)

theorem guarded_escaped (c : Char) : Guarded (escaped c) := by
  unfold escaped
  split_ifs with hquote hslash hline hreturn htab hfeed hback hcontrol
  · exact .pair .nil
  · exact .pair .nil
  · exact .pair .nil
  · exact .pair .nil
  · exact .pair .nil
  · exact .pair .nil
  · exact .pair .nil
  · exact .pair (guarded_of_forall fun d hd => (hexChars_printable 4 d hd).2)
  · exact .plain hquote hslash .nil

theorem guarded_flatMap (s : List Char) : Guarded (s.flatMap escaped) := by
  induction s with
  | nil => exact .nil
  | cons c s ih => exact (guarded_escaped c).append ih

theorem Guarded.head_ne {cs : List Char} (h : Guarded cs) : cs.head? ≠ some '\"' := by
  cases h with
  | nil => exact nofun
  | plain quote => simpa using quote
  | pair => simp

/-- What opens a quoted text is one quote, unless it is empty and a third quote follows. -/
theorem readQuoted?_quotedChars {named : String → Option Char} (s : List Char) {rest : List Char}
    (h : rest.head? ≠ some '\"') : readQuoted? named (quotedChars s ++ rest) = some (s, rest) := by
  have hopen : (s.flatMap escaped ++ '\"' :: rest).take 2 ≠ ['\"', '\"'] := by
    have hhead := (guarded_flatMap s).head_ne
    generalize s.flatMap escaped = inner at hhead
    rcases inner with _ | ⟨c, cs⟩
    · cases rest <;> simp_all
    · have hc : c ≠ '\"' := by simpa using hhead
      simp [hc]
  rw [quotedChars, List.append_assoc, List.cons_append, List.singleton_append, readQuoted?, if_neg hopen,
    Reading.run_escaped, Reading.run, Reading.next, Reading.plain, if_pos rfl, Reading.run_closed,
    List.nil_append]

/-! Lines. -/

theorem pieces_glued {sep : Char} {as bs : List Char} {ls rs : List (List Char)} {l r : List Char}
    (has : pieces sep as = ls ++ [l]) (hbs : pieces sep bs = r :: rs) :
    pieces sep (as ++ bs) = ls ++ (l ++ r) :: rs := by
  induction as generalizing ls l with
  | nil =>
    obtain ⟨rfl, rfl⟩ : ls = [] ∧ l = [] := by
      rcases ls with _ | ⟨p, ls⟩ <;> simp_all [pieces]
    exact hbs
  | cons a as ih =>
    by_cases ha : a = sep
    · rcases ls with _ | ⟨p, ls⟩
      · simp [pieces, ha, pieces_ne_nil] at has
      · rw [pieces, if_pos ha, List.cons_append, List.cons.injEq] at has
        rw [List.cons_append, pieces, if_pos ha, ih has.2, List.cons_append, ← has.1]
    · rcases hp : pieces sep as with _ | ⟨p, ps⟩
      · exact (pieces_ne_nil _ _ hp).elim
      rw [pieces, if_neg ha, hp] at has
      rcases ls with _ | ⟨q, ls⟩
      · obtain ⟨rfl, rfl⟩ : a :: p = l ∧ ps = [] := by simpa using has
        rw [List.cons_append, pieces, if_neg ha, ih (show pieces sep as = [] ++ [p] from hp)]
        rfl
      · obtain ⟨rfl, rfl⟩ : a :: p = q ∧ ps = ls ++ [l] := by simpa using has
        rw [List.cons_append, pieces, if_neg ha, ih (show pieces sep as = (p :: ls) ++ [l] from hp)]
        rfl

/-- A quoted text stays in the line in which it is put, and all other lines stay what they are. -/
theorem sourceLines_quoted (s before after : List Char) :
    ∃ ls l r rs, sourceLines before = ls ++ [l] ∧ sourceLines after = r :: rs ∧
      sourceLines (before ++ quotedChars s ++ after) = ls ++ (l ++ quotedChars s ++ r) :: rs := by
  obtain ⟨hfeed, hreturn⟩ := lineEnd_not_mem_quotedChars s
  have hend : Parted (before ++ quotedChars s) after := by
    intro hlast
    rw [quotedChars, ← List.append_assoc, List.getLast?_concat] at hlast
    cases hlast
  have hstart : Parted before (quotedChars s) := by
    intro _
    simp [quotedChars]
  have hlines : unixLines (before ++ quotedChars s ++ after) =
      unixLines before ++ (quotedChars s ++ unixLines after) := by
    rw [unixLines_append hend, unixLines_append hstart, unixLines_of_no_return hreturn, List.append_assoc]
  obtain ⟨ls, l, hbefore⟩ : ∃ ls l, sourceLines before = ls ++ [l] :=
    ⟨_, _, (List.dropLast_append_getLast (pieces_ne_nil _ _)).symm⟩
  obtain ⟨r, rs, hafter⟩ := List.exists_cons_of_ne_nil (pieces_ne_nil '\n' (unixLines after))
  have hquoted : pieces '\n' (quotedChars s ++ unixLines after) = (quotedChars s ++ r) :: rs :=
    pieces_glued (show pieces _ _ = [] ++ [quotedChars s] from pieces_of_not_mem hfeed) hafter
  refine ⟨ls, l, r, rs, hbefore, hafter, ?_⟩
  rw [sourceLines, hlines, pieces_glued hbefore hquoted, List.append_assoc]

/-- Quoting a text gives one literal that is read as the text, whatever stands before and behind it:
between its quotes is neither a control nor a quote that would end it. -/
theorem quote_literal (named : String → Option Char) :
    (∀ s, ∃ inner, (quote s).toList = '\"' :: inner ++ ['\"'] ∧ (∀ c ∈ inner, 32 ≤ c.toNat) ∧
      Guarded inner) ∧
    (∀ s rest, rest.head? ≠ some '\"' →
      readQuoted? named ((quote s).toList ++ rest) = some (s.toList, rest)) ∧
    Function.Injective quote ∧
    ∀ s before after, ∃ ls l r rs, sourceLines before = ls ++ [l] ∧ sourceLines after = r :: rs ∧
      sourceLines (before ++ (quote s).toList ++ after) = ls ++ (l ++ (quote s).toList ++ r) :: rs := by
  have hread : ∀ s rest, rest.head? ≠ some '\"' →
      readQuoted? named ((quote s).toList ++ rest) = some (s.toList, rest) := by
    intro s rest h
    rw [quote, String.toList_ofList, readQuoted?_quotedChars _ h]
  refine ⟨fun s => ⟨s.toList.flatMap escaped, String.toList_ofList, ?_, guarded_flatMap _⟩, hread, ?_, ?_⟩
  · intro c hc
    obtain ⟨d, -, hd⟩ := List.mem_flatMap.1 hc
    exact escaped_printable d c hd
  · intro s t h
    have hend : ([] : List Char).head? ≠ some '\"' := by decide
    have hs := hread s [] hend
    rw [h, hread t [] hend] at hs
    exact String.toList_inj.1 (by simpa using hs.symm)
  · intro s before after
    rw [quote, String.toList_ofList]
    exact sourceLines_quoted s.toList before after

end ModelContracts.Text
