import ModelContracts.Document.Mark

/-!
The scanner cuts a document into tokens. A value in a mapping shows only at its colon that what
stands before it is a key: the scanner keeps a note of every place where such a key may have begun
and, when the colon comes, inserts the tokens for it there.
-/

namespace ModelContracts.Document

/-- A place at which a key on one line may have begun. -/
structure PossibleKey where
  position : Nat
  /-- Whether a key must be there, since nothing else may start at its column. -/
  required : Bool
  index : Nat
  line : Nat
  column : Nat

structure Scanner where
  cursor : Cursor
  flow : Nat := 0
  /-- The least column inside each open block collection, the innermost one first. -/
  columns : List Nat := []
  keyAllowed : Bool := true
  /-- The possible key of each level of flow collections. -/
  keys : List (Nat × PossibleKey) := []
  /-- The tokens so far, the last one first. -/
  tokens : List Token := []
  /-- Where a key begins, and whether a mapping begins with it. -/
  inserts : List (Nat × Bool) := []

abbrev Scanning := StateT Scanner (Except Fault)

namespace Scanner

variable (s : Scanner)

def least : Nat := s.columns.headD 0

def allTokens : List Token :=
  s.tokens.reverse.zipIdx.flatMap fun (t, i) =>
    match s.inserts.lookup i with
    | some starts => (if starts then [.blockMapping] else []) ++ [.key, t]
    | none => [t]

end Scanner

namespace Scanning

def fail {α : Type} : Scanning α := throw .malformed

def cursor : Scanning Cursor := return (← get).cursor

def reading {α : Type} (r : Reading α) : Scanning α := do
  let (a, c) ← r.run (← cursor)
  modify fun s => { s with cursor := c }
  return a

def add (t : Token) : Scanning Unit := modify fun s => { s with tokens := t :: s.tokens }

def allowKey (b : Bool) : Scanning Unit := modify fun s => { s with keyAllowed := b }

/-- Drops a possible key; one that is required must not be dropped. -/
def dropKey (level : Nat) (k : PossibleKey) : Scanning Unit := do
  if k.required then fail
  modify fun s => { s with keys := s.keys.filter (·.1 ≠ level) }

def dropStaleKeys : Scanning Unit := do
  let s ← get
  s.keys.forM fun (level, k) => do
    if k.line ≠ s.cursor.line || 1024 < s.cursor.index - k.index then dropKey level k

def dropLevelKey : Scanning Unit := do
  let s ← get
  match s.keys.lookup s.flow with
  | some k => dropKey s.flow k
  | none => return ()

def noteKey : Scanning Unit := do
  let s ← get
  if s.keyAllowed then
    dropLevelKey
    let c := s.cursor
    let k : PossibleKey :=
      { position := s.tokens.length, required := s.flow = 0 && s.least = c.column + 1
        index := c.index, line := c.line, column := c.column }
    modify fun s => { s with keys := (s.flow, k) :: s.keys }

def unwindFrom (column : Nat) : List Nat → Scanning Unit
  | [] => modify fun s => { s with columns := [] }
  | least :: outer =>
    if column < least then do
      add .blockEnd
      unwindFrom column outer
    else modify fun s => { s with columns := least :: outer }

/-- Ends the block collections to which `column` is too far left; `0` ends all. -/
def unwind (column : Nat) : Scanning Unit := do
  let s ← get
  if s.flow = 0 then unwindFrom column s.columns

/-- Begins a block collection at a column unless it is inside one that begins there. -/
def indent (column : Nat) : Scanning Bool := do
  let s ← get
  if s.least ≤ column then
    set { s with columns := (column + 1) :: s.columns }
    return true
  else return false

/-! The tokens. -/

def fetchDocumentMark (t : Token) : Scanning Unit := do
  unwind 0
  dropLevelKey
  allowKey false
  reading (Reading.skip 3)
  add t

def fetchDirective : Scanning Unit := do
  unwind 0
  dropLevelKey
  allowKey false
  add (.directive (← reading directive))

def fetchOpening (t : Token) : Scanning Unit := do
  noteKey
  modify fun s => { s with flow := s.flow + 1 }
  allowKey true
  reading Reading.skip
  add t

def fetchClosing (t : Token) : Scanning Unit := do
  dropLevelKey
  modify fun s => { s with flow := s.flow - 1 }
  allowKey false
  reading Reading.skip
  add t

def fetchComma : Scanning Unit := do
  allowKey true
  dropLevelKey
  reading Reading.skip
  add .comma

def beginBlock (t : Token) : Scanning Unit := do
  let s ← get
  if s.flow = 0 then
    if !s.keyAllowed then fail
    if ← indent s.cursor.column then add t

def fetchEntry : Scanning Unit := do
  beginBlock .blockSequence
  allowKey true
  dropLevelKey
  reading Reading.skip
  add .entry

def fetchKey : Scanning Unit := do
  beginBlock .blockMapping
  allowKey ((← get).flow = 0)
  dropLevelKey
  reading Reading.skip
  add .key

def fetchValue : Scanning Unit := do
  let s ← get
  match s.keys.lookup s.flow with
  | some k =>
    let starts ← if s.flow = 0 then indent k.column else pure false
    modify fun s =>
      { s with keys := s.keys.filter (·.1 ≠ s.flow), inserts := (k.position, starts) :: s.inserts }
    allowKey false
  | none =>
    beginBlock .blockMapping
    allowKey (s.flow = 0)
  reading Reading.skip
  add .value

def fetchPossibleKey (r : Reading Token) : Scanning Unit := do
  noteKey
  allowKey false
  add (← reading r)

def fetchBlockScalar : Scanning Unit := do
  allowKey true
  dropLevelKey
  let least := max (← get).least 1
  add (.scalar (String.ofList (← reading (blockScalar least))) false)

def fetchPlain : Scanning Unit := do
  noteKey
  let s ← get
  let (text, ended) ← reading (plainScalar (s.flow ≠ 0) s.least)
  allowKey ended
  add (.scalar (String.ofList text) true)

def skipBlank : Nat → Scanning Unit
  | 0 => return ()
  | fuel + 1 => do
    reading do
      Reading.skipWhile (· = ' ')
      if (← Reading.peek) = '#' then Reading.skipWhile (!isLineEnd ·)
    if (← reading Reading.lineBreak).isEmpty then return ()
    if (← get).flow = 0 then allowKey true
    skipBlank fuel

def fetch (s : Scanner) : Scanning Unit :=
  let c := s.cursor
  let blank := isGap (c.peek 1)
  let inFlow := s.flow ≠ 0
  match c.peek with
  | '[' => fetchOpening .openSequence
  | '\x7b' => fetchOpening .openMapping
  | ']' => fetchClosing .closeSequence
  | '\x7d' => fetchClosing .closeMapping
  | ',' => fetchComma
  | '*' => fetchPossibleKey (Token.alias <$> anchorName)
  | '&' => fetchPossibleKey (Token.anchor <$> anchorName)
  | '!' => fetchPossibleKey (do
      let (h, suffix) ← tag
      return .tag h suffix)
  | '\'' | '"' => fetchPossibleKey (do return .scalar (String.ofList (← quotedScalar)) false)
  | '-' => if blank then fetchEntry else fetchPlain
  | '?' => if inFlow || blank then fetchKey else fetchPlain
  | ':' => if inFlow || blank then fetchValue else fetchPlain
  | '|' | '>' => if inFlow then fail else fetchBlockScalar
  | ch => if isGap ch || oneOf "#%@`" ch then fail else fetchPlain

def run : Nat → Scanning Unit
  | 0 => return ()
  | fuel + 1 => do
    skipBlank ((← cursor).rest.length + 1)
    dropStaleKeys
    let c ← cursor
    unwind (c.column + 1)
    if c.rest.isEmpty then
      unwind 0
      dropLevelKey
    else
      if c.column = 0 && c.peek = '%' then fetchDirective
      else if c.column = 0 && c.atMark "---" then fetchDocumentMark .documentStart
      else if c.column = 0 && c.atMark "..." then fetchDocumentMark .documentEnd
      else fetch (← get)
      run fuel

end Scanning

def begin (text : List Char) : Cursor :=
  let c : Cursor := { rest := text }
  if c.peek = '\ufeff' then c.step else c

def tokens (text : String) : Except Fault (List Token) :=
  if text.toList.all isAllowed then
    (StateT.run (Scanning.run (text.length + 1)) { cursor := begin text.toList }).map (·.2.allTokens)
  else .error .malformed

end ModelContracts.Document
