import ModelContracts.Log
import ModelContracts.Text.Spelled

/-!
Where log records go. The first configuration sets up the handler with its format; later ones only
change the level. A record is written when its level is positive and not below the one that is set.
-/

namespace ModelContracts

/-- A part of a format: a text, or a field of the record with how to write it. -/
inductive FormatPart where
  | text (cs : List Char)
  | field (name : String) (flags : List Char) (width : Nat) (precision : Option Nat) (kind : Char)
deriving DecidableEq, Repr

namespace FormatPart

def isFlagChar (c : Char) : Bool := ['#', '0', '+', ' ', '-'].contains c

def isNameChar (c : Char) : Bool := c.isAlphanum || c = '_'

def numberOf (cs : List Char) : Nat := cs.foldl (fun n c => n * 10 + (c.toNat - '0'.toNat)) 0

def kinds : List Char := "diouxefgcrsa%".toList

def field? (cs : List Char) : Option (FormatPart × List Char) :=
  match cs with
  | '(' :: rest =>
    let name := rest.takeWhile isNameChar
    match rest.drop name.length with
    | ')' :: rest =>
      let flags := rest.takeWhile isFlagChar
      let rest := rest.drop flags.length
      let width := rest.takeWhile Char.isDigit
      let rest := rest.drop width.length
      let (precision, rest) := match rest with
        | '.' :: more =>
          let digits := more.takeWhile Char.isDigit
          (some (numberOf digits), more.drop digits.length)
        | rest => (none, rest)
      match rest with
      | kind :: rest =>
        if !name.isEmpty && kinds.contains kind.toLower then
          some (.field (String.ofList name) flags (numberOf width) precision kind, rest)
        else none
      | [] => none
    | _ => none
  | _ => none

/-- The parts of a format; none when a percent sign introduces nothing. -/
def parts? : Nat → List Char → Option (List FormatPart)
  | 0, _ => some []
  | fuel + 1, cs =>
    let plain := cs.takeWhile (· ≠ '%')
    match cs.drop plain.length with
    | [] => some [.text plain]
    | _ :: '%' :: rest => (parts? fuel rest).map (.text (plain ++ ['%']) :: ·)
    | _ :: rest => do
      let (f, rest) ← field? rest
      return .text plain :: f :: (← parts? fuel rest)

def hasField : List Char → Bool
  | [] => false
  | c :: rest => (c = '%' && (field? rest).isSome) || hasField rest

end FormatPart

/-- A message on its way to the handler. -/
structure LogMessage where
  source : String
  level : Int
  text : String
deriving DecidableEq, Repr

namespace LogMessage

def levelName (level : Int) : String :=
  match [(0, "NOTSET"), (10, "DEBUG"), (20, "INFO"), (30, "WARNING"), (40, "ERROR"),
    (50, "CRITICAL")].lookup level with
  | some name => name
  | none => "Level " ++ toString level

def filledUp (flags : List Char) (width : Nat) (fill : Char) (cs : List Char) : List Char :=
  let missing := width - cs.length
  if flags.contains '-' then cs ++ List.replicate missing ' '
  else List.replicate missing fill ++ cs

def sourceName (m : LogMessage) : String := if m.source.isEmpty then "root" else m.source

def textField? (m : LogMessage) (name : String) : Option String :=
  match name with
  | "name" => some m.sourceName
  | "levelname" => some (levelName m.level)
  | "message" | "msg" => some m.text
  | _ => none

def part? (m : LogMessage) : FormatPart → Option (List Char)
  | .text cs => some cs
  | .field name flags width precision kind =>
    match m.textField? name, name with
    | some s, _ =>
      let shown := if kind = 's' then some s.toList
        else if kind = 'r' then some (Text.spell s).toList else none
      shown.map fun cs => filledUp flags width ' ' (match precision with
        | some n => cs.take n
        | none => cs)
    | none, "levelno" =>
      if ['s', 'd', 'i', 'u', 'r'].contains kind then
        let zero := flags.contains '0' && kind ≠ 's' && kind ≠ 'r'
        some (filledUp flags width (if zero then '0' else ' ') (toString m.level).toList)
      else none
    | none, _ => none

end LogMessage

structure LogSink where
  /-- The format of the handler, once there is one. -/
  format : Option String := none
  level : Int := 30
deriving DecidableEq, Repr

/-- A format in which nothing of a record appears. -/
inductive FormatError where
  | noField
deriving DecidableEq, Repr

namespace LogSink

def standardFormat : String := "[%(levelname)s] %(name)s: %(message)s"

def formatOr (format : String) : String := if format.isEmpty then "%(message)s" else format

def configure (s : LogSink) (level : Int) (format : String) : Except FormatError LogSink :=
  match s.format with
  | some _ => .ok { s with level := level }
  | none =>
    if FormatPart.hasField (formatOr format).toList then .ok ⟨some (formatOr format), level⟩
    else .error .noField

def handlers (s : LogSink) : Nat := if s.format.isSome then 1 else 0

def written (s : LogSink) (m : LogMessage) : String :=
  match s.format with
  | none => ""
  | some format =>
    if 0 < m.level && s.level ≤ m.level then
      match (FormatPart.parts? (format.length + 1) format.toList).bind (·.mapM m.part?) with
      | some parts => String.ofList parts.flatten ++ "\n"
      | none => ""
    else ""

theorem handlers_configure {s t : LogSink} {level : Int} {format : String}
    (h : s.configure level format = .ok t) : t.handlers = 1 := by
  unfold configure at h
  split at h
  · rename_i f hf
    obtain rfl := Except.ok.inj h
    simp [handlers, hf]
  · split at h
    · obtain rfl := Except.ok.inj h
      rfl
    · contradiction

end LogSink

end ModelContracts
