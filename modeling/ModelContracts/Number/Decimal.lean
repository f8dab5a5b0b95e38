import ModelContracts.Number.FloatText

/-!
Decimal numbers that keep their written precision, and fractions. `1.10` and `1.1` are equal but
print differently; the text of a decimal reads back as the same coefficient and exponent.
-/

namespace ModelContracts.Number

inductive Decimal where
  | finite (negative : Bool) (coefficient : Nat) (exponent : Int)
  | infinite (negative : Bool)
  | nan (negative signaling : Bool) (payload : Nat)
deriving Repr, DecidableEq

def signed (negative : Bool) (cs : List Char) : List Char :=
  if negative then '-' :: cs else cs

def exponentMark (e : Int) : List Char :=
  'E' :: (if e < 0 then '-' else '+') :: digitsOf e.natAbs

/-- Positional notation while the exponent is not above zero and at most five zeros follow the
point before the first digit, otherwise one digit before the point and a power of ten. -/
def Decimal.finiteChars (coefficient : Nat) (exponent : Int) : List Char :=
  let ds := digitsOf coefficient
  let left := exponent + ds.length
  let place := if exponent ≤ 0 ∧ -6 < left then left else 1
  let body :=
    if place ≤ 0 then '0' :: '.' :: List.replicate (-place).toNat '0' ++ ds
    else
      let n := place.toNat
      match ds.drop n with
      | [] => ds ++ List.replicate (n - ds.length) '0'
      | rest => ds.take n ++ '.' :: rest
  if left = place then body else body ++ exponentMark (left - place)

def Decimal.text : Decimal → String
  | .finite negative c e => String.ofList (signed negative (finiteChars c e))
  | .infinite negative => String.ofList (signed negative "Infinity".toList)
  | .nan negative signaling payload =>
    let word := if signaling then "sNaN" else "NaN"
    let tail := if payload = 0 then [] else digitsOf payload
    String.ofList (signed negative (word.toList ++ tail))

def allDigits (cs : List Char) : Bool := cs.all fun c => '0' ≤ c ∧ c ≤ '9'

def naturalOf (cs : List Char) : Nat :=
  cs.foldl (fun n c => n * 10 + (c.toNat - 48)) 0

def nanPayload? (cs : List Char) : Option Nat :=
  if allDigits cs then some (naturalOf cs) else none

def Decimal.ofText? (s : String) : Option Decimal :=
  let (negative, body) := leadingSign (Text.trimmedChars s.toList)
  let word := body.map Text.lowerAsciiChar
  if word = "inf".toList ∨ word = "infinity".toList then some (.infinite negative)
  else match word with
    | 'n' :: 'a' :: 'n' :: rest => (nanPayload? rest).map (.nan negative false)
    | 's' :: 'n' :: 'a' :: 'n' :: rest => (nanPayload? rest).map (.nan negative true)
    | _ => (decimalNumber? body).map fun (c, e) => .finite negative c e

/-- The exact value as a signed numerator and a denominator. -/
def Decimal.ratio? : Decimal → Option (Int × Nat)
  | .finite negative c e =>
    let (n, d) := scaleDown 10 (-e) c 1
    some (if negative then -(n : Int) else n, d)
  | _ => none

/-- A fraction in lowest terms with a positive denominator. -/
structure Fraction where
  num : Int
  den : Nat
deriving Repr, DecidableEq

/-- The fraction `n / d`, or `none` when `d` is zero. -/
def Fraction.of? (n d : Int) : Option Fraction :=
  if d = 0 then none
  else
    let g := Int.gcd n d
    let n := if d < 0 then -n else n
    some ⟨n / g, d.natAbs / g⟩

def Fraction.text (f : Fraction) : String :=
  if f.den = 1 then toString f.num else toString f.num ++ "/" ++ toString f.den

end ModelContracts.Number
