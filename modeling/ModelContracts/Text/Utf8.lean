/-!
UTF-8 read one octet at a time. The state between octets tells how many octets of the current
character are still to come and which values the next one may have, so a text may be read in parts.
-/

namespace ModelContracts.Text

inductive Utf8State where
  | ready
  /-- `left` octets to come after the next one, which lies between `lo` and `hi`. -/
  | inside (left lo hi acc : Nat)
deriving Repr, DecidableEq

def Utf8State.step : Utf8State → Nat → Option (Utf8State × Option Char)
  | .ready, b =>
    if b < 0x80 then some (.ready, some (Char.ofNat b))
    else if b < 0xC2 then none
    else if b < 0xE0 then some (.inside 0 0x80 0xBF (b - 0xC0), none)
    else if b = 0xE0 then some (.inside 1 0xA0 0xBF 0, none)
    else if b = 0xED then some (.inside 1 0x80 0x9F 0xD, none)
    else if b < 0xF0 then some (.inside 1 0x80 0xBF (b - 0xE0), none)
    else if b = 0xF0 then some (.inside 2 0x90 0xBF 0, none)
    else if b < 0xF4 then some (.inside 2 0x80 0xBF (b - 0xF0), none)
    else if b = 0xF4 then some (.inside 2 0x80 0x8F 4, none)
    else none
  | .inside left lo hi acc, b =>
    if lo ≤ b ∧ b ≤ hi then
      let n := acc * 64 + (b - 0x80)
      match left with
      | 0 => some (.ready, some (Char.ofNat n))
      | left + 1 => some (.inside left 0x80 0xBF n, none)
    else none

def decodeFrom : Utf8State → List UInt8 → Option (List Char × Utf8State)
  | st, [] => some ([], st)
  | st, b :: rest =>
    match st.step b.toNat with
    | none => none
    | some (st', c?) =>
      match decodeFrom st' rest with
      | none => none
      | some (cs, final) => some (c?.toList ++ cs, final)

/-- The text that `data` encodes; `none` when an octet is out of place or the last character is
cut short. -/
def decodeUtf8 (data : List UInt8) : Option String :=
  match decodeFrom .ready data with
  | some (cs, .ready) => some (String.ofList cs)
  | _ => none

def encodeUtf8 (s : String) : List UInt8 := s.toUTF8.toList

def unixLines : List Char → List Char
  | [] => []
  | '\r' :: '\n' :: rest => '\n' :: unixLines rest
  | '\r' :: rest => '\n' :: unixLines rest
  | c :: rest => c :: unixLines rest

end ModelContracts.Text
