import ModelContracts.Document.Scanner
import ModelContracts.Document.Tag

/-!
The tree of a document. An alias stands for the node that its anchor marks; a node inside itself is
refused.
-/

namespace ModelContracts.Document

inductive Node where
  | scalar (tag : Tag) (text : String)
  | sequence (tag : Tag) (items : List Node)
  | mapping (tag : Tag) (entries : List (Node × Node))

namespace Node

def tag : Node → Tag
  | .scalar t _ | .sequence t _ | .mapping t _ => t

/-- The node of a text that is not there. -/
def empty : Node := .scalar (Tag.ofText "") ""

end Node

/-- Where a node stands. Behind a key or a colon of a block, the entries of a sequence need not be
indented. -/
inductive Place where
  | flow | block | afterMark
deriving DecidableEq, Repr

structure Composer where
  tokens : List Token
  /-- The nodes that anchors mark; none while the node is being composed. -/
  anchors : List (String × Option Node) := []
  /-- What the handles of tags stand for. -/
  handles : List (String × String) := []

abbrev Composing := StateT Composer (Except Fault)

namespace Composing

def fail {α : Type} : Composing α := throw .malformed

/-- The next token; none at the end. -/
def next? : Composing (Option Token) := return (← get).tokens.head?

def advance : Composing Unit := modify fun c => { c with tokens := c.tokens.tail }

def nextIsOneOf (ts : List Token) : Composing Bool := do
  match ← next? with
  | some t => return ts.contains t
  | none => return false

def accept (t : Token) : Composing Bool := do
  if (← next?) = some t then
    advance
    return true
  else return false

def expect (t : Token) : Composing Unit := do
  if !(← accept t) then fail

/-- What precedes a node: its anchor and its tag, in either order. -/
structure Properties where
  anchor : Option String := none
  tag : Option Tag := none

def fullTag (handle : Option String) (suffix : String) : Composing Tag := do
  match handle with
  | none => return suffix
  | some h => match (← get).handles.lookup h with
    | some start => return start ++ suffix
    | none => fail

def anchor? : Composing (Option String) := do
  match ← next? with
  | some (.anchor n) =>
    advance
    return some n
  | _ => return none

def tag? : Composing (Option (Option String × String)) := do
  match ← next? with
  | some (.tag h suffix) =>
    advance
    return some (h, suffix)
  | _ => return none

def properties : Composing Properties := do
  let before ← anchor?
  let t ← tag?
  let after ← if before.isSome || t.isNone then pure before else anchor?
  match t with
  | some (h, suffix) => return ⟨after, some (← fullTag h suffix)⟩
  | none => return ⟨after, none⟩

/-- The tag of a scalar: its own, or the one of its form unless it is quoted. -/
def Properties.scalarTag (p : Properties) (text : String) (plain : Bool) : Tag :=
  match p.tag with
  | none => if plain then Tag.ofText text else Tag.str
  | some "!" => Tag.ofText text
  | some t => t

def Properties.collectionTag (p : Properties) (usual : Tag) : Tag :=
  match p.tag with
  | none | some "!" => usual
  | some t => t

/-- Notes that the node of an anchor begins; an anchor must not stand twice. -/
def beginAnchor (name : Option String) : Composing Unit := do
  match name with
  | none => return ()
  | some name =>
    let c ← get
    if (c.anchors.lookup name).isSome then fail
    set { c with anchors := (name, none) :: c.anchors }

def endAnchor (name : Option String) (n : Node) : Composing Unit := do
  match name with
  | none => return ()
  | some name => modify fun c => { c with anchors := (name, some n) :: c.anchors }

def aliased (name : String) : Composing Node := do
  match (← get).anchors.lookup name with
  | some (some n) => return n
  | _ => fail

def bare (p : Properties) : Composing Node := do
  if p.anchor.isNone && p.tag.isNone then fail
  return .scalar (p.scalarTag "" true) ""

mutual

def node : Nat → Place → Composing Node
  | 0, _ => fail
  | fuel + 1, place => do
    if let some (.alias name) ← next? then
      advance
      return ← aliased name
    let p ← properties
    beginAnchor p.anchor
    let n ← match ← next? with
      | some (.scalar text plain) => do
        advance
        pure (.scalar (p.scalarTag text plain) text)
      | some .openSequence => do
        advance
        pure (.sequence (p.collectionTag Tag.seq) (← flowItems fuel true))
      | some .openMapping => do
        advance
        pure (.mapping (p.collectionTag Tag.map) (← flowEntries fuel true))
      | some .entry =>
        if place = .afterMark then do
          pure (.sequence (p.collectionTag Tag.seq) (← looseItems fuel))
        else bare p
      | some .blockSequence =>
        if place = .flow then bare p
        else do
          advance
          pure (.sequence (p.collectionTag Tag.seq) (← blockItems fuel))
      | some .blockMapping =>
        if place = .flow then bare p
        else do
          advance
          pure (.mapping (p.collectionTag Tag.map) (← blockEntries fuel))
      | _ => bare p
    endAnchor p.anchor n
    return n

def blockItems : Nat → Composing (List Node)
  | 0 => fail
  | fuel + 1 => do
    if ← accept .entry then
      let n ← nodeUnless fuel .block [.entry, .blockEnd]
      return n :: (← blockItems fuel)
    else
      expect .blockEnd
      return []

/-- The entries of a sequence that is not indented; what comes next ends it. -/
def looseItems : Nat → Composing (List Node)
  | 0 => fail
  | fuel + 1 => do
    if ← accept .entry then
      let n ← nodeUnless fuel .block [.entry, .key, .value, .blockEnd]
      return n :: (← looseItems fuel)
    else return []

def blockEntries : Nat → Composing (List (Node × Node))
  | 0 => fail
  | fuel + 1 => do
    if ← accept .key then
      let k ← nodeUnless fuel .afterMark [.key, .value, .blockEnd]
      let v ← if ← accept .value then nodeUnless fuel .afterMark [.key, .value, .blockEnd]
        else pure .empty
      return (k, v) :: (← blockEntries fuel)
    else
      expect .blockEnd
      return []

/-- The items of a flow sequence up to its end. A pair with a colon is a mapping by itself. -/
def flowItems : Nat → Bool → Composing (List Node)
  | 0, _ => fail
  | fuel + 1, first => do
    if ← accept .closeSequence then return []
    if !first then expect .comma
    if ← accept .closeSequence then return []
    let n ← if ← accept .key then do
        let k ← nodeUnless fuel .flow [.value, .comma, .closeSequence]
        let v ← if ← accept .value then nodeUnless fuel .flow [.comma, .closeSequence] else pure .empty
        pure (.mapping Tag.map [(k, v)])
      else node fuel .flow
    return n :: (← flowItems fuel false)

def flowEntries : Nat → Bool → Composing (List (Node × Node))
  | 0, _ => fail
  | fuel + 1, first => do
    if ← accept .closeMapping then return []
    if !first then expect .comma
    if ← accept .closeMapping then return []
    let (k, v) ← if ← accept .key then do
        let k ← nodeUnless fuel .flow [.value, .comma, .closeMapping]
        let v ← if ← accept .value then nodeUnless fuel .flow [.comma, .closeMapping] else pure .empty
        pure (k, v)
      else do
        pure (← node fuel .flow, .empty)
    return (k, v) :: (← flowEntries fuel false)

/-- A node, or the empty one when a token comes that cannot begin a node here. -/
def nodeUnless : Nat → Place → List Token → Composing Node
  | 0, _, _ => fail
  | fuel + 1, place, ts => do
    if ← nextIsOneOf ts then return .empty else node fuel place

end

/-! Documents. -/

def usualHandles : List (String × String) := [("!", "!"), ("!!", Tag.start)]

/-- The directives before a document. Of each kind, and for each handle, there is one at most. -/
def directives : Bool → List Token → Composing Unit
  | versioned, .directive d :: rest => do
    advance
    match d with
    | .version major =>
      if versioned || major ≠ 1 then fail
      directives true rest
    | .tag h start =>
      let c ← get
      if (c.handles.lookup h).isSome then fail
      set { c with handles := (h, start) :: c.handles }
      directives versioned rest
    | .other => directives versioned rest
  | _, _ => return ()

def documentEnds : Composing Unit :=
  modify fun c => { c with tokens := c.tokens.dropWhile (· = .documentEnd) }

/-- The only document of a text, if there is one. -/
def document : Composing (Option Node) := do
  let ts := (← get).tokens
  -- every call of `node` or of a list of entries takes up a token or belongs to one that does
  let fuel := 4 * ts.length + 4
  match ts with
  | [] => return none
  | .directive _ :: _ | .documentStart :: _ =>
    directives false ts
    modify fun c => { c with handles := c.handles ++ usualHandles }
    expect .documentStart
    let n ← match ← next? with
      | none | some (.directive _) | some .documentStart | some .documentEnd => pure .empty
      | _ => node fuel .block
    documentEnds
    return some n
  | _ =>
    modify fun c => { c with handles := usualHandles }
    let n ← node fuel .block
    documentEnds
    return some n

end Composing

def compose (text : String) : Except Fault (Option Node) := do
  let (n, c) ← (StateT.run Composing.document { tokens := ← tokens text })
  if c.tokens.isEmpty then return n else throw .malformed

end ModelContracts.Document
