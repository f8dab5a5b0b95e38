import ModelContracts.Text.Hex

/-!
Double-quoted texts. A quote, a backslash and every control below the space are written with a
backslash; all other characters stand for themselves. Reading accepts what writing produces.
-/

namespace ModelContracts.Text

def escaped (c : Char) : List Char :=
  if c = '\"' then ['\\', '\"']
  else if c = '\\' then ['\\', '\\']
  else if c = '\n' then ['\\', 'n']
  else if c = '\r' then ['\\', 'r']
  else if c = '\t' then ['\\', 't']
  else if c = '\x0c' then ['\\', 'f']
  else if c = '\x08' then ['\\', 'b']
  else if c.toNat < 32 then '\\' :: 'u' :: hexChars 4 c.toNat
  else [c]

def quotedChars (cs : List Char) : List Char :=
  '\"' :: cs.flatMap escaped ++ ['\"']

def quote (s : String) : String := String.ofList (quotedChars s.toList)

end ModelContracts.Text
