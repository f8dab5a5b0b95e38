import ModelContracts.Text.Blank
import ModelContracts.Text.Hex
import ModelContracts.Text.Pieces
import ModelContracts.Text.Utf8

/-!
The statements of a module's source, read line by line, whichever way the lines end. Indented and
blank lines belong to the statement before them. Of a class body only the functions and classes count,
with their decorators: its annotations are never evaluated.
-/

namespace ModelContracts

/-- A statement without a block of its own. -/
inductive PlainStatement where
  | nothing
  | setText (name text : String)
  | setNumber (name : String) (n : Int)
  | importNames (module : String) (names : List String)
  | importModule (module name : String)
  /-- Raising an error of a kind, with its text if it has one. -/
  | fail (kind : String) (text : Option String)
  /-- Calling a function with a number or with nothing. -/
  | call (name : String) (argument : Option Int)
  | mention (name : String)
deriving DecidableEq, Repr

/-- The names that a statement binds. What a function binds when it is called is its own. -/
def PlainStatement.binds : PlainStatement → List String
  | .setText name _ | .setNumber name _ | .importModule _ name => [name]
  | .importNames _ names => names
  | .nothing | .fail .. | .call .. | .mention _ => []

/-- A decorator: a dotted name, and the text in its brackets when it is called. -/
structure Decorator where
  line : Nat
  name : String
  argument : Option String
deriving DecidableEq, Repr

/-- A function or a class in the body of a class, with the decorators above it. -/
structure Definition where
  decorators : List Decorator
  name : String
deriving DecidableEq, Repr

inductive Statement where
  | plain (line : Nat) (s : PlainStatement)
  | function (name : String) (body : List (Nat × PlainStatement))
  | classDef (decorators : List Decorator) (line : Nat) (name : String) (base : Option String)
      (body : List Definition)
deriving Repr

/-- A line that is no statement: its number, the column of the fault and what is wrong. -/
structure SyntaxFault where
  line : Nat
  column : Nat
  message : String
deriving DecidableEq, Repr

namespace Statement

def unescape (q : Char) : List Char → List Char
  | [] => []
  | '\\' :: 'u' :: a :: b :: c :: d :: rest =>
    Char.ofNat ((Text.hexNumber? 0 [a, b, c, d]).getD 0) :: unescape q rest
  | '\\' :: c :: rest =>
    let meant := match c with
      | 'n' => '\n'
      | 'r' => '\r'
      | 't' => '\t'
      | 'f' => '\x0c'
      | 'b' => '\x08'
      | c => c
    meant :: unescape q rest
  | c :: rest => if c = q then [] else c :: unescape q rest

def text? : List Char → Option String
  | q :: rest => if q = '\"' || q = '\'' then some (String.ofList (unescape q rest)) else none
  | [] => none

def number? (cs : List Char) : Option Int := (String.ofList cs).toInt?

def string (cs : List Char) : String := String.ofList (Text.trimmedChars cs)

/-- The text before an opening bracket, and what stands inside up to the last closing one. -/
def called (cs : List Char) : List Char × Option (List Char) :=
  match cs.dropWhile (· ≠ '(') with
  | [] => (cs, none)
  | _ :: rest =>
    (cs.takeWhile (· ≠ '('), some ((rest.reverse.dropWhile (· ≠ ')')).drop 1).reverse)

def namesOf (cs : List Char) : List String := (Text.pieces ',' cs).map string

def around (word : String) : List Char → Option (List Char × List Char)
  | [] => none
  | c :: rest => match Text.after? (" " ++ word ++ " ").toList (c :: rest) with
    | some right => some ([], right)
    | none => (around word rest).map fun (left, right) => (c :: left, right)

def importNames (cs : List Char) : PlainStatement :=
  match around "import" cs with
  | none => .mention (string cs)
  | some (module, names) =>
    if string module = "__future__" then .nothing
    else .importNames (string module) (namesOf names)

/-- A whole module is bound by its alias, or else by the first part of its name. -/
def importModule (cs : List Char) : PlainStatement :=
  match around "as" cs with
  | some (module, name) => .importModule (string module) (string name)
  | none =>
    let top := Text.firstPiece '.' (string cs)
    .importModule (string cs) top

def failure (cs : List Char) : PlainStatement :=
  let (kind, inner) := called cs
  .fail (string kind) (inner.bind text?)

def assignment (name value : List Char) : PlainStatement :=
  match text? (Text.trimmedChars value) with
  | some s => .setText (string name) s
  | none => match number? (Text.trimmedChars value) with
    | some n => .setNumber (string name) n
    | none => .mention (string value)

def plainOf (cs : List Char) : PlainStatement :=
  let cs := Text.trimmedChars cs
  if cs.isEmpty || cs.head? = some '#' || cs = "pass".toList then .nothing
  else match Text.after? "from ".toList cs with
    | some rest => importNames rest
    | none => match Text.after? "import ".toList cs with
      | some rest => importModule rest
      | none => match Text.after? "raise ".toList cs with
        | some rest => failure rest
        | none => match around "=" cs with
          | some (name, value) => assignment name value
          | none => match called cs with
            | (name, some inner) => .call (string name) (number? (Text.trimmedChars inner))
            | (name, none) => .mention (string name)

def decorator (line : Nat) (cs : List Char) : Decorator :=
  let (name, inner) := called (cs.drop 1)
  { line := line, name := string name, argument := inner.bind text? }

/-! Blocks. -/

abbrev Line := Nat × List Char

def isInner (l : Line) : Bool :=
  match l.2 with
  | [] => true
  | c :: _ => Text.isBlank c

/-- Each line at the margin with the lines that belong to it; those before the first are dropped. -/
def blocks (lines : List Line) : List (Line × List Line) :=
  (lines.foldr (fun l (inner, done) =>
    if isInner l then (l :: inner, done) else ([], (l, inner) :: done))
    (([], []) : List Line × List (Line × List Line))).2

/-- The name behind the word that starts a line, when the line starts a function or a class. -/
def definedName? (cs : List Char) : Option String :=
  match Text.after? "def ".toList cs, Text.after? "class ".toList cs with
  | some tail, _ => some (string (called tail).1)
  | none, some tail => some (string (called (tail.takeWhile (· ≠ ':'))).1)
  | none, none => none

/-- What the lines of a class body define. A decorator waits for the definition below it. -/
def definitions : List Decorator → List Line → List Definition
  | _, [] => []
  | waiting, (n, cs) :: rest =>
    let cs := Text.trimmedChars cs
    if cs.head? = some '@' then definitions (waiting ++ [decorator n cs]) rest
    else match definedName? cs with
      | some name => ⟨waiting, name⟩ :: definitions [] rest
      | none => definitions waiting rest

def classOf (decorators : List Decorator) (line : Nat) (cs : List Char) (inner : List Line) :
    Statement :=
  let (name, base) := called (cs.takeWhile (· ≠ ':'))
  .classDef decorators line (string name) ((base.map string).filter (· ≠ "")) (definitions [] inner)

def ofBlocks : List Decorator → List (Line × List Line) → List Statement
  | _, [] => []
  | decorators, ((n, cs), inner) :: rest =>
    if cs.head? = some '@' then ofBlocks (decorators ++ [decorator n cs]) rest
    else match Text.after? "class ".toList cs with
      | some tail => classOf decorators n tail inner :: ofBlocks [] rest
      | none => match Text.after? "def ".toList cs with
        | some tail =>
          let body := inner.map fun (n, cs) => (n, plainOf cs)
          .function (string (called tail).1) body :: ofBlocks [] rest
        | none => .plain n (plainOf cs) :: ofBlocks [] rest

def numbered : Nat → List (List Char) → List Line
  | _, [] => []
  | n, l :: rest => (n, l) :: numbered (n + 1) rest

/-- The fault of a class statement whose bracket is not closed before the colon. -/
def unclosed? (l : Line) : Option SyntaxFault :=
  let cs := Text.trimmedChars l.2
  match Text.after? "class ".toList cs with
  | none => none
  | some _ =>
    let head := l.2.takeWhile (· ≠ ':')
    if head.contains '(' && !head.contains ')' then some ⟨l.1, head.length + 1, "invalid syntax"⟩
    else none

/-- The one name that is no keyword and yet cannot be bound. -/
def constantName : String := "__debug__"

/-- The names that a line binds, whether it stands in a class or not. -/
def boundOn (cs : List Char) : List String :=
  match Text.after? "class ".toList cs, Text.after? "def ".toList cs with
  | some tail, _ => [string (called (tail.takeWhile (· ≠ ':'))).1]
  | none, some tail => [string (called tail).1]
  | none, none => string (cs.takeWhile (· ≠ ':')) :: (plainOf cs).binds

def rebound? (l : Line) : Option SyntaxFault :=
  if (boundOn (Text.trimmedChars l.2)).contains constantName then
    some ⟨l.1, (l.2.takeWhile Text.isBlank).length + 1, "cannot assign to " ++ constantName⟩
  else none

def fault? (l : Line) : Option SyntaxFault := (unclosed? l).or (rebound? l)

/-- The lines in the order in which their names are bound: a class has its name behind its body. -/
def bindingOrder (lines : List Line) : List Line := (blocks lines).flatMap fun (l, inner) => inner ++ [l]

/-- The first fault. What is unclosed anywhere is found before any name is bound. -/
def firstFault? (lines : List Line) : Option SyntaxFault :=
  (lines.findSome? unclosed?).or ((bindingOrder lines).findSome? rebound?)

def ofSource (source : String) : Except SyntaxFault (List Statement) :=
  let lines := numbered 1 (Text.pieces '\n' (Text.unixLines source.toList))
  match firstFault? lines with
  | some f => .error f
  | none => .ok (ofBlocks [] (blocks lines))

end Statement

end ModelContracts
