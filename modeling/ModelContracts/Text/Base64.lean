/-!
Octets written with sixty-four letters, four letters for three octets. Characters that are no such
letters are passed over; equals signs fill up the last group.
-/

namespace ModelContracts.Text

def letterValue? (c : Char) : Option Nat :=
  if 'A' ≤ c ∧ c ≤ 'Z' then some (c.toNat - 65)
  else if 'a' ≤ c ∧ c ≤ 'z' then some (c.toNat - 71)
  else if '0' ≤ c ∧ c ≤ '9' then some (c.toNat + 4)
  else if c = '+' then some 62
  else if c = '/' then some 63
  else none

/-- Continues a group of which `count` letters were read; `left` holds the bits that are in no octet
yet, and `signs` counts the equals signs at the end of what was read. -/
def lettersFrom (count left signs : Nat) : List Char → Option (List UInt8)
  | [] => if count = 0 then some [] else none
  | c :: rest =>
    if c = '=' then
      if 2 ≤ count ∧ 4 ≤ count + signs + 1 then some []
      else lettersFrom count left (if 2 ≤ count then signs + 1 else signs) rest
    else match letterValue? c with
      | none => lettersFrom count left signs rest
      | some v => match count with
        | 0 => lettersFrom 1 v 0 rest
        | 1 => (lettersFrom 2 (v % 16) 0 rest).map (UInt8.ofNat (left * 4 + v / 16) :: ·)
        | 2 => (lettersFrom 3 (v % 4) 0 rest).map (UInt8.ofNat (left * 16 + v / 4) :: ·)
        | _ => (lettersFrom 0 0 0 rest).map (UInt8.ofNat (left * 64 + v) :: ·)

def base64? (cs : List Char) : Option (List UInt8) := lettersFrom 0 0 0 cs

end ModelContracts.Text
