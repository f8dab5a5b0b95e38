import ModelContracts.Document.Node
import ModelContracts.Text.Base64
import ModelContracts.TypeExpr.Entries

/-!
What a document says. The tag of each node tells which value it stands for. Of equal keys the last
one counts, at the place of the first; entries that a mapping takes over from others come before its
own.
-/

namespace ModelContracts.Document

open Number

/-! Numbers. -/

/-- A whole number in digits of a base. The mark of the base may stand before the digits. -/
def wholeNumber? (base : Nat) (mark : Char) (cs : List Char) : Option Int :=
  let (negative, body) := leadingSign (Text.trimmedChars cs)
  let digits := match body with
    | '0' :: c :: rest => if c.toLower = mark then rest else body
    | body => body
  let values := digits.map fun c => (Text.hexValue? c).filter (· < base)
  if digits.isEmpty || values.contains none || (base = 10 && 4300 < digits.length) then none
  else
    let n : Nat := values.foldl (fun (n : Nat) (v : Option Nat) => n * base + v.getD 0) 0
    some (if negative then -(n : Int) else n)

def sixties (parts : List Int) : Int := parts.foldl (fun n part => n * 60 + part) 0

def demand {α : Type} (fault : Fault) (a : Option α) : Except Fault α :=
  match a with
  | some a => .ok a
  | none => .error fault

def intOf (text : String) : Except Fault Int := do
  let cs := text.toList.filter (· ≠ '_')
  if cs.isEmpty then throw .emptyNumber
  let (negative, body) := leadingSign cs
  let n ← match body with
    | [] => throw .emptyNumber
    | ['0'] => pure 0
    | '0' :: 'b' :: rest => demand .noNumber (wholeNumber? 2 'b' rest)
    | '0' :: 'x' :: rest => demand .noNumber (wholeNumber? 16 'x' rest)
    | '0' :: _ => demand .noNumber (wholeNumber? 8 'o' body)
    | _ => sixties <$> (Text.pieces ':' body).mapM fun part => demand .noNumber (wholeNumber? 10 '0' part)
  return if negative then -n else n

/-- The sum of some numbers, the last one taken once and each before it sixty times as often. -/
def floatSixties (parts : List Binary64) : Binary64 :=
  (parts.reverse.foldl (fun (sum, unit) part => (sum.add (part.mul (.ofInt unit)), unit * 60))
    (.ofInt 0, (1 : Int))).1

def floatOf (text : String) : Except Fault Binary64 := do
  let cs := (text.toList.filter (· ≠ '_')).map Char.toLower
  if cs.isEmpty then throw .emptyNumber
  let (negative, body) := leadingSign cs
  let x ← match String.ofList body with
    | ".inf" => pure (.infinite false)
    | ".nan" => pure .nan
    | s => match Text.split ':' s with
      | [_] => demand .noNumber (Binary64.ofText? s)
      | parts => floatSixties <$> parts.mapM fun part => demand .noNumber (Binary64.ofText? part)
  return if negative then x.neg else x

/-! Dates. -/

def daysOf (year month : Nat) : Nat :=
  if month = 2 then (if (year % 4 = 0 && year % 100 ≠ 0) || year % 400 = 0 then 29 else 28)
  else if [4, 6, 9, 11].contains month then 30
  else 31

def DateParts.isReal (d : DateParts) : Bool :=
  1 ≤ d.year && 1 ≤ d.month && d.month ≤ 12 && 1 ≤ d.day && d.day ≤ daysOf d.year d.month

def ClockParts.isReal (c : ClockParts) : Bool :=
  c.hour < 24 && c.minute < 60 && c.second < 60 && (c.ahead.getD 0).natAbs < 1440

/-- Millionths of a second; further digits are dropped. -/
def ClockParts.micro (c : ClockParts) : Nat :=
  numberOf ((c.fraction ++ List.replicate 6 '0').take 6)

def dateOf (text : String) : Except Fault Value := do
  let cs := text.toList
  let cs := if cs.getLast? = some '\n' then cs.dropLast else cs
  let d ← demand .noDate (dateParts? cs)
  if d.rest.isEmpty then
    if d.isReal then return .date d.year d.month d.day else throw .wrongDate
  else
    let c ← demand .noDate (clockParts? d.rest)
    if d.isReal && c.isReal then
      return .moment d.year d.month d.day (c.hour * 3600 + c.minute * 60 + c.second) c.micro c.ahead
    else throw .wrongDate

/-! Scalars. -/

def flagOf (text : String) : Except Fault Bool :=
  let word := text.toLower
  if trueWords.contains word then .ok true
  else if falseWords.contains word then .ok false
  else .error .noFlag

def scalarValue (tag : Tag) (text : String) : Except Fault Value :=
  match Text.after? Tag.start.toList tag.toList |>.map String.ofList with
  | some "str" => .ok (.text text)
  | some "null" => .ok .none
  | some "bool" => Value.bool <$> flagOf text
  | some "int" => Value.int <$> intOf text
  | some "float" => Value.float <$> floatOf text
  | some "timestamp" => dateOf text
  | some "binary" =>
    if text.toList.all (·.toNat < 128) then
      Value.bytes <$> demand .malformed (Text.base64? text.toList)
    else .error .malformed
  | _ => .error .malformed

/-! Collections. -/

/-- The mapping of some entries. Its keys must be such as can be looked up. -/
def dictOf (entries : Entries) : Except Fault Entries :=
  if entries.all fun e => e.1.hashable then
    .ok (entries.foldl (fun d e => d.set e.1 e.2) [])
  else .error .malformed

/-- The entries that a mapping takes over from a node: those of a mapping, or of several, of which
the first counts most. -/
def takenOver : Node → Except Fault (List (Node × Node))
  | .mapping _ entries => .ok entries
  | .sequence _ items => do
    let all ← items.mapM fun
      | .mapping _ entries => .ok entries
      | _ => .error .malformed
    return all.reverse.flatten
  | .scalar .. => .error .malformed

def withTakenOver (entries : List (Node × Node)) : Except Fault (List (Node × Node)) := do
  let taken ← (entries.filter fun e => e.1.tag = Tag.merge).mapM fun e => takenOver e.2
  return taken.flatten ++ entries.filter fun e => e.1.tag ≠ Tag.merge

mutual

def Node.complete : Node → Except Fault Node
  | .scalar t text => .ok (.scalar t text)
  | .sequence t items => do return .sequence t (← completeAll items)
  | .mapping t entries => do return .mapping t (← withTakenOver (← completeEntries entries))
termination_by structural n => n

def completeAll : List Node → Except Fault (List Node)
  | [] => .ok []
  | n :: rest => do return (← n.complete) :: (← completeAll rest)
termination_by structural l => l

def completeEntries : List (Node × Node) → Except Fault (List (Node × Node))
  | [] => .ok []
  | e :: rest => do return (← completeEntry e) :: (← completeEntries rest)
termination_by structural l => l

def completeEntry : Node × Node → Except Fault (Node × Node)
  | (k, v) => do return (← k.complete, ← v.complete)
termination_by structural e => e

end

mutual

/-- The text of a scalar, or of the value that a mapping has for an equals sign. -/
def Node.text : Node → Except Fault String
  | .scalar _ text => .ok text
  | .sequence .. => .error .malformed
  | .mapping _ entries => textIn entries
termination_by structural n => n

def textIn : List (Node × Node) → Except Fault String
  | [] => .error .malformed
  | e :: rest => if e.1.tag = Tag.value then textOfEntry e else textIn rest
termination_by structural l => l

def textOfEntry : Node × Node → Except Fault String
  | (_, v) => v.text
termination_by structural e => e

end

/-- The only entry of a mapping, as a pair. -/
def pairOf : Value → Except Fault Value
  | .dict [(k, v)] => .ok (.tuple [k, v])
  | _ => .error .malformed

mutual

def Node.meaning : Node → Except Fault Value
  | .scalar t text => scalarValue t text
  | .sequence t items => do
    let vs ← meanings items
    if t = Tag.seq then return .list vs
    else if t = Tag.standard "omap" || t = Tag.standard "pairs" then return .list (← vs.mapM pairOf)
    else throw .malformed
  | .mapping t entries => do
    if t = Tag.map then return .dict (← dictOf (← entryMeanings entries))
    else if t = Tag.standard "set" then
      return .list ((← dictOf (← entryMeanings entries)).map (·.1))
    else scalarValue t (← textIn entries)
termination_by structural n => n

def meanings : List Node → Except Fault (List Value)
  | [] => .ok []
  | n :: rest => do return (← n.meaning) :: (← meanings rest)
termination_by structural l => l

def entryMeanings : List (Node × Node) → Except Fault Entries
  | [] => .ok []
  | e :: rest => do return (← entryMeaning e) :: (← entryMeanings rest)
termination_by structural l => l

def entryMeaning : Node × Node → Except Fault (Value × Value)
  | (k, v) => do
    let key ← if k.tag = Tag.value then Value.text <$> k.text else k.meaning
    return (key, ← v.meaning)
termination_by structural e => e

end

/-- What a text says: the value of its only document, or none. -/
def read (text : String) : Except Fault Value := do
  match ← compose text with
  | some n => (← n.complete).meaning
  | none => return .none

end ModelContracts.Document
