import ModelContracts.Document.Cursor
import ModelContracts.Document.Token
import ModelContracts.Text.Hex

/-!
Scalars: plain ones, quoted ones, and blocks of lines. A single line break inside a plain or quoted
scalar folds into a space; of several, all but the first stay.
-/

namespace ModelContracts.Document

abbrev Reading := StateT Cursor (Except Fault)

namespace Reading

def fail {α : Type} : Reading α := throw .malformed

def peek (n : Nat := 0) : Reading Char := return (← get).peek n

def skip (n : Nat := 1) : Reading Unit := modify (Cursor.skip n)

def takeWhile (p : Char → Bool) : Reading (List Char) := do
  let c ← get
  set (c.skipWhile p)
  return c.word p

def skipWhile (p : Char → Bool) : Reading Unit := modify (·.skipWhile p)

def lineBreak : Reading (List Char) := do
  let (ch, c) := (← get).lineBreak
  set c
  return ch

def expect (p : Char → Bool) : Reading Unit := do
  if !p (← peek) then fail

/-- The rest of a line on which only a comment may stand. -/
def restOfLine : Reading Unit := do
  skipWhile (· = ' ')
  if (← peek) = '#' then skipWhile (!isLineEnd ·)
  expect isLineEnd
  let _ ← lineBreak

end Reading

open Reading

def folded (first : List Char) (more : List Char) : List Char :=
  if first ≠ ['\n'] then first ++ more else if more.isEmpty then [' '] else more

/-! Plain scalars. -/

/-- The length of the plain text at the start of some characters. In a flow collection its brackets
and commas end the text, and so does a colon before them. -/
def plainLength (flow : Bool) : List Char → Nat
  | [] => 0
  | c :: rest =>
    let next := rest.headD endMark
    if isGap c || (c = ':' && (isGap next || (flow && oneOf ",[]\x7b\x7d" next)))
        || (flow && oneOf ",?[]\x7b\x7d" c) then 0
    else plainLength flow rest + 1

/-- Blank lines after a line break, as far as no separator of documents begins one. -/
def plainBreaks : Nat → List Char → Reading (Option (List Char))
  | 0, breaks => return some breaks
  | fuel + 1, breaks => do
    skipWhile (· = ' ')
    match ← lineBreak with
    | [] => return some breaks
    | ch => if (← get).atSeparator then return none else plainBreaks fuel (breaks ++ ch)

def plainSpaces : Reading (List Char × Bool) := do
  let spaces ← takeWhile (· = ' ')
  match ← lineBreak with
  | [] => return (spaces, false)
  | first =>
    if (← get).atSeparator then return ([], true)
    match ← plainBreaks (← get).rest.length [] with
    | none => return ([], true)
    | some more => return (folded first more, true)

/-- The words of a plain scalar with what stands between them, and whether the last line ended. -/
def plainWords (flow : Bool) (least : Nat) : Nat → List Char → List Char → Bool → Reading (List Char × Bool)
  | 0, text, _, ended => return (text, ended)
  | fuel + 1, text, spaces, ended => do
    let c ← get
    let n := if c.peek = '#' then 0 else plainLength flow c.rest
    if n = 0 then return (text, ended)
    let text := text ++ spaces ++ c.rest.take n
    skip n
    let (spaces, ended) ← plainSpaces
    let c ← get
    if spaces.isEmpty || c.peek = '#' || (!flow && c.column < least) then return (text, ended)
    plainWords flow least fuel text spaces ended

def plainScalar (flow : Bool) (least : Nat) : Reading (List Char × Bool) := do
  plainWords flow least ((← get).rest.length + 1) [] [] false

/-! Quoted scalars. -/

def escapes : List (Char × Char) :=
  [('0', '\x00'), ('a', '\x07'), ('b', '\x08'), ('t', '\t'), ('\t', '\t'), ('n', '\n'), ('v', '\x0b'),
    ('f', '\x0c'), ('r', '\r'), ('e', '\x1b'), (' ', ' '), ('"', '"'), ('\\', '\\'), ('/', '/'),
    ('N', '\x85'), ('_', '\xa0'), ('L', '\u2028'), ('P', '\u2029')]

def escapeDigits : List (Char × Nat) := [('x', 2), ('u', 4), ('U', 8)]

def numbered (n : Nat) : Except Fault Char :=
  if 0x7fffffff < n then .error .hugeCharacter
  else if 0x10ffff < n then .error .noCharacter
  else .ok (Char.ofNat n)

/-- Line breaks between which no separator of documents stands. -/
def quotedBreaks : Nat → List Char → Reading (List Char)
  | 0, breaks => return breaks
  | fuel + 1, breaks => do
    if (← get).atSeparator then fail
    skipWhile (oneOf " \t")
    match ← lineBreak with
    | [] => return breaks
    | ch => quotedBreaks fuel (breaks ++ ch)

def escape : Reading (List Char) := do
  let ch ← peek
  match escapes.lookup ch, escapeDigits.lookup ch with
  | some meant, _ =>
    skip
    return [meant]
  | none, some n =>
    skip
    match Text.hexNumber? 0 ((← get).rest.take n) with
    | some code =>
      if (← get).rest.length < n then fail
      let meant ← numbered code
      skip n
      return [meant]
    | none => fail
  | none, none =>
    if (← lineBreak).isEmpty then fail
    quotedBreaks ((← get).rest.length + 1) []

def quotedSpaces : Reading (List Char) := do
  let spaces ← takeWhile (oneOf " \t")
  expect (· ≠ endMark)
  match ← lineBreak with
  | [] => return spaces
  | first => return folded first (← quotedBreaks ((← get).rest.length + 1) [])

def quotedText (quote : Char) : Nat → List Char → Reading (List Char)
  | 0, _ => fail
  | fuel + 1, text => do
    let text := text ++ (← takeWhile fun c => !(isGap c || oneOf "'\"\\" c))
    let c ← get
    if c.peek = quote then
      if quote = '\'' && c.peek 1 = quote then
        skip 2
        quotedText quote fuel (text ++ [quote])
      else return text
    else if quote = '"' && c.peek = '\\' then
      skip
      quotedText quote fuel (text ++ (← escape))
    else if oneOf "'\"\\" c.peek then
      skip
      quotedText quote fuel (text ++ [c.peek])
    else quotedText quote fuel (text ++ (← quotedSpaces))

def quotedScalar : Reading (List Char) := do
  let quote ← peek
  skip
  let text ← quotedText quote ((← get).rest.length + 1) []
  skip
  return text

/-! Blocks of lines. -/

/-- What becomes of the line breaks at the end of a block. -/
inductive Chomping where
  | strip | clip | keep
deriving DecidableEq, Repr

def chomping? : Reading (Option Chomping) := do
  let ch ← peek
  if oneOf "+-" ch then
    skip
    return some (if ch = '+' then .keep else .strip)
  else return none

def indentation? : Reading (Option Nat) := do
  let ch ← peek
  if '0' ≤ ch && ch ≤ '9' then
    if ch = '0' then fail
    skip
    return some (ch.toNat - '0'.toNat)
  else return none

def blockHead : Reading (Chomping × Option Nat) := do
  let before ← chomping?
  let columns ← indentation?
  let after ← if before.isSome || columns.isNone then pure before else chomping?
  expect isSpaceOrEnd
  restOfLine
  return (after.getD .clip, columns)

/-- Empty lines at the start of a block, and the furthest column that their spaces reach. -/
def leadingLines : Nat → List Char → Nat → Reading (List Char × Nat)
  | 0, breaks, far => return (breaks, far)
  | fuel + 1, breaks, far => do
    skipWhile (· = ' ')
    let far := max far (← get).column
    match ← lineBreak with
    | [] => return (breaks, far)
    | ch => leadingLines fuel (breaks ++ ch) far

def indentTo (column : Nat) : Reading Unit := do
  let c ← get
  skip (min (c.word (· = ' ')).length (column - c.column))

def emptyLines (column : Nat) : Nat → List Char → Reading (List Char)
  | 0, breaks => return breaks
  | fuel + 1, breaks => do
    indentTo column
    match ← lineBreak with
    | [] => return breaks
    | ch => emptyLines column fuel (breaks ++ ch)

/-- The lines of a block with the line breaks between them; the last break and the empty lines after
it come apart. A folded block joins two lines that both start with text. -/
def blockLines (joining : Bool) (column : Nat) :
    Nat → List Char → List Char → Reading (List Char × List Char × List Char)
  | 0, text, breaks => return (text, [], breaks)
  | fuel + 1, text, breaks => do
    let starts := !oneOf " \t" (← peek)
    let text := text ++ breaks ++ (← takeWhile (!isLineEnd ·))
    let last ← lineBreak
    let breaks ← emptyLines column ((← get).rest.length + 1) []
    let c ← get
    if c.column ≠ column || c.peek = endMark then return (text, last, breaks)
    let joined := joining && last = ['\n'] && starts && !oneOf " \t" c.peek
    let between := if !joined then last else if breaks.isEmpty then [' '] else []
    blockLines joining column fuel (text ++ between) breaks

def blockScalar (least : Nat) : Reading (List Char) := do
  let joining := (← peek) = '>'
  skip
  let (chomping, columns) ← blockHead
  let fuel := (← get).rest.length + 1
  let (breaks, column) ← match columns with
    | some n => do
      let column := least + n - 1
      pure (← emptyLines column fuel [], column)
    | none => do
      let (breaks, far) ← leadingLines fuel [] 0
      pure (breaks, max least far)
  let c ← get
  let (text, last, breaks) ←
    if c.column = column && c.peek ≠ endMark then blockLines joining column fuel [] breaks
    else pure ([], [], breaks)
  return match chomping with
    | .strip => text
    | .clip => text ++ last
    | .keep => text ++ last ++ breaks

end ModelContracts.Document
