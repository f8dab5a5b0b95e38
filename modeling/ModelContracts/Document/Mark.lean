import ModelContracts.Document.Scalar
import ModelContracts.Text.Utf8

/-!
Anchors, tags and directives.
-/

namespace ModelContracts.Document

open Reading

def name : Reading String := do
  let cs ← takeWhile isNameChar
  if cs.isEmpty then fail
  return String.ofList cs

def anchorName : Reading String := do
  skip
  let n ← name
  expect fun c => isGap c || oneOf "?:,]\x7d%@\x60" c
  return n

/-! Tags. -/

def isUriChar (c : Char) : Bool := isNameChar c || oneOf ";/?:@&=+$,_.!~*'()[]" c

def uriOctets : Nat → List UInt8 → Reading (List UInt8)
  | 0, data => return data
  | fuel + 1, data => do
    let c ← get
    if c.peek ≠ '%' then return data
    match Text.octets? ((c.rest.drop 1).take 2) with
    | some [b] =>
      skip 3
      uriOctets fuel (data ++ [b])
    | _ => fail

def uriParts : Nat → List Char → Reading (List Char)
  | 0, text => return text
  | fuel + 1, text => do
    let text := text ++ (← takeWhile isUriChar)
    if (← peek) ≠ '%' then return text
    match Text.decodeUtf8 (← uriOctets (← get).rest.length []) with
    | some s => uriParts fuel (text ++ s.toList)
    | none => fail

def uri : Reading String := do
  let start := (← get).index
  let text ← uriParts ((← get).rest.length + 1) []
  if (← get).index = start then fail
  return String.ofList text

/-- A handle: an exclamation mark by itself, or two with a name between them. -/
def handle : Reading String := do
  expect (· = '!')
  skip
  if (← peek) = ' ' then return "!"
  let cs ← takeWhile isNameChar
  expect (· = '!')
  skip
  return String.ofList ('!' :: cs ++ ['!'])

/-- A tag behind its exclamation mark. The handle is none when the tag is given in full. -/
def tag : Reading (Option String × String) := do
  let c ← get
  let t ← if c.peek 1 = '<' then do
      skip 2
      let u ← uri
      expect (· = '>')
      skip
      pure (none, u)
    else if isGap (c.peek 1) then do
      skip
      pure (none, "!")
    else if ((c.rest.drop 1).takeWhile (!isSpaceOrEnd ·)).contains '!' then do
      let h ← handle
      pure (some h, ← uri)
    else do
      skip
      pure (some "!", ← uri)
  expect isSpaceOrEnd
  return t

/-! Directives. -/

def versionNumber : Reading Nat := do
  let digits ← takeWhile fun c => '0' ≤ c && c ≤ '9'
  if digits.isEmpty then fail
  return digits.foldl (fun n c => n * 10 + (c.toNat - '0'.toNat)) 0

def versionDirective : Reading Directive := do
  skipWhile (· = ' ')
  let major ← versionNumber
  expect (· = '.')
  skip
  let _ ← versionNumber
  expect isSpaceOrEnd
  return .version major

def tagDirective : Reading Directive := do
  skipWhile (· = ' ')
  let h ← handle
  expect (· = ' ')
  skipWhile (· = ' ')
  let start ← uri
  expect isSpaceOrEnd
  return .tag h start

def directive : Reading Directive := do
  skip
  let n ← name
  expect isSpaceOrEnd
  let d ← match n with
    | "YAML" => versionDirective
    | "TAG" => tagDirective
    | _ => do
      skipWhile (!isLineEnd ·)
      pure .other
  restOfLine
  return d

end ModelContracts.Document
