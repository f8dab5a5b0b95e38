/-!
A place in the text of a YAML document: what follows it, how many characters come before it, and its
line and column. Beyond the end of the text there is nothing but the end mark, which no document
holds.
-/

namespace ModelContracts.Document

def endMark : Char := '\x00'

def isAllowed (c : Char) : Bool :=
  let n := c.toNat
  n = 9 || n = 10 || n = 13 || n = 0x85 || (0x20 ≤ n && n ≤ 0x7e) || (0xa0 ≤ n && n ≤ 0xd7ff)
    || (0xe000 ≤ n && n ≤ 0xfffd) || 0x10000 ≤ n

def isBreak (c : Char) : Bool :=
  c = '\n' || c = '\r' || c = '\x85' || c = '\u2028' || c = '\u2029'

def isLineEnd (c : Char) : Bool := c = endMark || isBreak c

def isSpaceOrEnd (c : Char) : Bool := c = ' ' || isLineEnd c

def isGap (c : Char) : Bool := c = '\t' || isSpaceOrEnd c

def isNameChar (c : Char) : Bool :=
  ('0' ≤ c && c ≤ '9') || ('A' ≤ c && c ≤ 'Z') || ('a' ≤ c && c ≤ 'z') || c = '-' || c = '_'

def oneOf (s : String) (c : Char) : Bool := s.toList.contains c

structure Cursor where
  rest : List Char
  index : Nat := 0
  line : Nat := 0
  column : Nat := 0

namespace Cursor

variable (c : Cursor)

def peek (n : Nat := 0) : Char := c.rest.getD n endMark

def startsWith (s : String) : Bool := s.toList.isPrefixOf c.rest

/-- Past a carriage return a line begins unless a line feed follows. -/
def endsLine (ch : Char) (rest : List Char) : Bool :=
  if ch = '\r' then rest.head? ≠ some '\n' else isBreak ch

/-- One character ahead. A byte order mark takes up no column. -/
def step : Cursor :=
  match c.rest with
  | [] => c
  | ch :: rest =>
    if endsLine ch rest then ⟨rest, c.index + 1, c.line + 1, 0⟩
    else ⟨rest, c.index + 1, c.line, if ch = '\ufeff' then c.column else c.column + 1⟩

def skip : Nat → Cursor → Cursor
  | 0, c => c
  | n + 1, c => skip n c.step

/-- The characters up to the first that does not satisfy `p`. -/
def word (p : Char → Bool) : List Char := c.rest.takeWhile p

def skipWhile (p : Char → Bool) : Cursor := skip (c.word p).length c

def lineBreak : List Char × Cursor :=
  if c.startsWith "\r\n" then (['\n'], c.skip 2)
  else if c.peek = '\u2028' || c.peek = '\u2029' then ([c.peek], c.step)
  else if isBreak c.peek then (['\n'], c.step)
  else ([], c)

def atMark (s : String) : Bool := c.startsWith s && isGap (c.peek 3)

def atSeparator : Bool := c.atMark "---" || c.atMark "..."

theorem step_index_le : c.step.index ≤ c.index + 1 := by
  unfold step
  split
  · exact Nat.le_succ _
  · split <;> exact Nat.le_refl _

end Cursor

end ModelContracts.Document
