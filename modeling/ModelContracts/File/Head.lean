import ModelContracts.Text.Utf8

/-!
The first characters of a file. Octets are read in portions and decoded as they come, so an octet
out of place is noticed only in a portion that is read. Line ends are made uniform; a carriage
return at the end of a portion is held back, since a line feed may follow it.
-/

namespace ModelContracts

structure LineReader where
  state : Text.Utf8State := .ready
  /-- Whether a carriage return is held back. -/
  held : Bool := false

namespace LineReader

def holdBack (cs : List Char) : List Char × Bool :=
  if cs.getLast? = some '\r' then (cs.dropLast, true) else (cs, false)

/-- The characters that a portion gives; the last portion must end with a whole character. -/
def feed (r : LineReader) (portion : List UInt8) (last : Bool) : Option (List Char × LineReader) :=
  match Text.decodeFrom r.state portion with
  | none => none
  | some (cs, state) =>
    if last then
      if state = .ready then
        some (Text.unixLines (if r.held then '\r' :: cs else cs), {})
      else none
    else if cs.isEmpty then some ([], { r with state := state })
    else
      let (cs, held) := holdBack (if r.held then '\r' :: cs else cs)
      some (Text.unixLines cs, ⟨state, held⟩)

end LineReader

/-- Reads portions until `limit` characters are there or the data ends. -/
def headFrom (limit portion : Nat) : Nat → LineReader → List Char → List UInt8 → Option (List Char)
  | 0, _, cs, _ => some (cs.take limit)
  | fuel + 1, r, cs, data =>
    if limit ≤ cs.length then some (cs.take limit)
    else match r.feed (data.take portion) data.isEmpty with
      | none => none
      | some (more, r) =>
        if data.isEmpty then some ((cs ++ more).take limit)
        else headFrom limit portion fuel r (cs ++ more) (data.drop portion)

/-- The first `limit` characters of a file that is read in portions of so many octets. -/
def fileHead (limit portion : Nat) (data : List UInt8) : Option (List Char) :=
  headFrom limit portion (data.length + 1) {} [] data

def fileText (data : List UInt8) : Option String :=
  (Text.decodeUtf8 data).map fun s => String.ofList (Text.unixLines s.toList)

end ModelContracts
