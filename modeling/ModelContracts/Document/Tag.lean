import ModelContracts.Text.Pieces

/-!
Tags tell what a node stands for. A plain scalar without a tag gets one by its form: by the words for
truth values and for nothing, and by the patterns of numbers and of dates.
-/

namespace ModelContracts.Document

abbrev Tag := String

namespace Tag

def start : String := "tag:yaml.org,2002:"

def standard (kind : String) : Tag := start ++ kind

def str : Tag := standard "str"
def seq : Tag := standard "seq"
def map : Tag := standard "map"
def merge : Tag := standard "merge"
def value : Tag := standard "value"

end Tag

/-! Patterns. -/

def isDigit (c : Char) : Bool := '0' ≤ c && c ≤ '9'

def isDigitOrBar (c : Char) : Bool := isDigit c || c = '_'

def withoutSign : List Char → List Char
  | '-' :: rest | '+' :: rest => rest
  | cs => cs

def isCount : List Char → Bool
  | c :: rest => isDigit c && rest.all isDigitOrBar
  | [] => false

def isRun (p : Char → Bool) (cs : List Char) : Bool := !cs.isEmpty && cs.all p

def isSixtieth : List Char → Bool
  | [a] => isDigit a
  | [a, b] => '0' ≤ a && a ≤ '5' && isDigit b
  | _ => false

def isSixties (cs : List Char) : Bool :=
  match Text.pieces ':' cs with
  | first :: rest@(_ :: _) => isCount first && rest.all isSixtieth
  | _ => false

def isExponent : List Char → Bool
  | [] => true
  | c :: rest => (c = 'e' || c = 'E') && match rest with
    | s :: digits => (s = '-' || s = '+') && isRun isDigit digits
    | [] => false

def isFloat (cs : List Char) : Bool :=
  let body := withoutSign cs
  let whole := body.takeWhile (· ≠ '.')
  match body.dropWhile (· ≠ '.') with
  | _ :: rest =>
    let exponent := rest.dropWhile isDigitOrBar
    (isCount whole && isExponent exponent)
      || (isSixties whole && exponent.isEmpty)
      || (cs.head? = some '.' && isCount (rest.takeWhile isDigitOrBar) && isExponent exponent)
      || (whole.isEmpty && ["inf", "Inf", "INF"].contains (String.ofList rest))
      || (cs.head? = some '.' && ["nan", "NaN", "NAN"].contains (String.ofList rest))
  | [] => false

def isInt (cs : List Char) : Bool :=
  match withoutSign cs with
  | ['0'] => true
  | '0' :: 'b' :: rest => isRun (fun c => c = '0' || c = '1' || c = '_') rest
  | '0' :: 'x' :: rest =>
    isRun (fun c => isDigitOrBar c || ('a' ≤ c && c ≤ 'f') || ('A' ≤ c && c ≤ 'F')) rest
  | '0' :: rest => isRun (fun c => ('0' ≤ c && c ≤ '7') || c = '_') rest
  | body => isCount body || isSixties body

def trueWords : List String := ["yes", "true", "on"]

def falseWords : List String := ["no", "false", "off"]

def casings (word : String) : List String := [word, word.capitalize, word.toUpper]

def isFlag (s : String) : Bool := ((trueWords ++ falseWords).flatMap casings).contains s

def isNull (s : String) : Bool := s = "" || s = "~" || (casings "null").contains s

/-! Dates. -/

/-- The parts of a date: as numbers the year, the month and the day, and what follows. -/
structure DateParts where
  year : Nat
  month : Nat
  day : Nat
  /-- Whether month and day have two digits each. -/
  full : Bool
  rest : List Char

structure ClockParts where
  hour : Nat
  minute : Nat
  second : Nat
  fraction : List Char
  /-- The minutes by which the clock is ahead, when a zone is given. -/
  ahead : Option Int

def numberOf (cs : List Char) : Nat := cs.foldl (fun n c => n * 10 + (c.toNat - '0'.toNat)) 0

def shortNumber? (cs : List Char) : Option (List Char × List Char) :=
  match cs with
  | a :: b :: rest =>
    if isDigit a && isDigit b then some ([a, b], rest)
    else if isDigit a then some ([a], b :: rest)
    else none
  | [a] => if isDigit a then some ([a], []) else none
  | [] => none

def twoDigits? : List Char → Option (Nat × List Char)
  | a :: b :: rest => if isDigit a && isDigit b then some (numberOf [a, b], rest) else none
  | _ => none

def afterChar? (c : Char) : List Char → Option (List Char)
  | d :: rest => if d = c then some rest else none
  | [] => none

def dateParts? (cs : List Char) : Option DateParts := do
  let year := cs.take 4
  if year.length ≠ 4 || !year.all isDigit then none
  let (month, rest) ← shortNumber? (← afterChar? '-' (cs.drop 4))
  let (day, rest) ← shortNumber? (← afterChar? '-' rest)
  return ⟨numberOf year, numberOf month, numberOf day, month.length = 2 && day.length = 2, rest⟩

/-- The minutes of a zone, which is given up to the end of the text. -/
def zone? (cs : List Char) : Option (Option Int) :=
  match cs with
  | [] => some none
  | ['Z'] => some (some 0)
  | s :: rest =>
    if s = '-' || s = '+' then do
      let (hours, rest) ← shortNumber? rest
      let minutes ← match rest with
        | [] => some 0
        | rest => match twoDigits? (← afterChar? ':' rest) with
          | some (m, []) => some m
          | _ => none
      let ahead : Int := numberOf hours * 60 + minutes
      return some (if s = '-' then -ahead else ahead)
    else none

def isBlankOrTab (c : Char) : Bool := c = ' ' || c = '\t'

def clockParts? (cs : List Char) : Option ClockParts := do
  let body ← match cs with
    | 'T' :: rest | 't' :: rest => some rest
    | c :: rest => if isBlankOrTab c then some (rest.dropWhile isBlankOrTab) else none
    | [] => none
  let (hour, rest) ← shortNumber? body
  let (minute, rest) ← twoDigits? (← afterChar? ':' rest)
  let (second, rest) ← twoDigits? (← afterChar? ':' rest)
  let (fraction, rest) := match rest with
    | '.' :: rest => (rest.takeWhile isDigit, rest.dropWhile isDigit)
    | rest => ([], rest)
  let after := rest.dropWhile isBlankOrTab
  let ahead ← if after.isEmpty && !rest.isEmpty then none else zone? after
  return ⟨numberOf hour, minute, second, fraction, ahead⟩

def isTimestamp (cs : List Char) : Bool :=
  match dateParts? cs with
  | some d => (d.full && d.rest.isEmpty) || (clockParts? d.rest).isSome
  | none => false

/-- The tag that the form of a plain scalar gives it. A line break at the end does not count. -/
def Tag.ofText (s : String) : Tag :=
  let cs := s.toList
  let cs := if cs.length > 1 && cs.getLast? = some '\n' then cs.dropLast else cs
  let word := String.ofList cs
  if isFlag word then standard "bool"
  else if isFloat cs then standard "float"
  else if isInt cs then standard "int"
  else if word = "<<" then merge
  else if isNull word then standard "null"
  else if isTimestamp cs then standard "timestamp"
  else if word = "=" then value
  else if ["!", "&", "*"].contains word then standard "yaml"
  else str

end ModelContracts.Document
