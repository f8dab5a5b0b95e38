import ModelContracts.Text.Hex
import ModelContracts.Text.Printable

/-!
Spelled texts: the form in which messages and type expressions show a text or a string of octets.
Single quotes are used unless the text holds one and no double quote.
-/

namespace ModelContracts.Text

def spellingQuote (cs : List Char) : Char :=
  if cs.contains '\'' && !cs.contains '\"' then '\"' else '\''

def spelledChar (q c : Char) : List Char :=
  if c = q ∨ c = '\\' then ['\\', c]
  else if c = '\n' then ['\\', 'n']
  else if c = '\r' then ['\\', 'r']
  else if c = '\t' then ['\\', 't']
  else if printableChars.contains c then [c]
  else if c.toNat < 0x100 then '\\' :: 'x' :: hexChars 2 c.toNat
  else if c.toNat < 0x10000 then '\\' :: 'u' :: hexChars 4 c.toNat
  else '\\' :: 'U' :: hexChars 8 c.toNat

def spell (s : String) : String :=
  let cs := s.toList
  let q := spellingQuote cs
  String.ofList (q :: cs.flatMap (spelledChar q) ++ [q])

def spelledOctet (escapeQuotes : List Char) (b : UInt8) : List Char :=
  let c := Char.ofNat b.toNat
  if escapeQuotes.contains c ∨ c = '\\' then ['\\', c]
  else if c = '\n' then ['\\', 'n']
  else if c = '\r' then ['\\', 'r']
  else if c = '\t' then ['\\', 't']
  else if 32 ≤ b.toNat ∧ b.toNat < 127 then [c]
  else '\\' :: 'x' :: hexChars 2 b.toNat

def octetQuote (data : List UInt8) : Char :=
  spellingQuote (data.map fun b => Char.ofNat b.toNat)

def spellBytes (data : List UInt8) : String :=
  let q := octetQuote data
  String.ofList ('b' :: q :: data.flatMap (spelledOctet [q]) ++ [q])

def spellBuffer (data : List UInt8) : String :=
  let q := octetQuote data
  "bytearray(" ++ String.ofList ('b' :: q :: data.flatMap (spelledOctet ['\'', q]) ++ [q]) ++ ")"

end ModelContracts.Text
