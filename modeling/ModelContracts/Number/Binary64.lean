import ModelContracts.Number.Rounding

/-!
Binary floating point numbers of 64 bits as exact data: a finite number is a significand below
`2 ^ 53` times a power of two. The significand is at least `2 ^ 52` unless the exponent is the
least one, so every number has one form; the two zeros differ in their sign.
-/

namespace ModelContracts.Number

inductive Binary64 where
  | nan
  | infinite (negative : Bool)
  | finite (negative : Bool) (significand : Nat) (exponent : Int)
deriving Repr, DecidableEq

namespace Binary64

def leastExponent : Int := -1074
def greatestExponent : Int := 971

/-- The number nearest to `num / den`, an exact half going to the even significand. -/
def ofRatio (negative : Bool) (num den : Nat) : Binary64 :=
  if num = 0 then .finite negative 0 leastExponent
  else
    let guess : Int := (num.log2 : Int) - (den.log2 : Int) - 52
    let (n, d) := scaleDown 2 guess num den
    let fitted := if n < d * Nat.pow 2 52 then guess - 1 else guess
    let e := max fitted leastExponent
    let (n, d) := scaleDown 2 e num den
    let m := roundQuotient n d
    let (m, e) := if m = Nat.pow 2 53 then (Nat.pow 2 52, e + 1) else (m, e)
    if greatestExponent < e then .infinite negative else .finite negative m e

def ofInt (n : Int) : Binary64 := ofRatio (decide (n < 0)) n.natAbs 1

/-- The number nearest to `digits * 10 ^ e`. Exponents far outside the range are not expanded. -/
def ofDecimal (negative : Bool) (digits : Nat) (e : Int) : Binary64 :=
  let order := ((Nat.toDigits 10 digits).length : Int) + e
  if digits = 0 ∨ order < -330 then .finite negative 0 leastExponent
  else if 310 < order then .infinite negative
  else
    let (n, d) := scaleDown 10 (-e) digits 1
    ofRatio negative n d

/-- The exact value as a signed numerator and a denominator. -/
def ratio? : Binary64 → Option (Int × Nat)
  | .finite negative m e =>
    let (n, d) := scaleDown 2 (-e) m 1
    some (if negative then -(n : Int) else n, d)
  | _ => none

def ofSigned (num : Int) (den : Nat) : Binary64 := ofRatio (decide (num < 0)) num.natAbs den

def add (x y : Binary64) : Binary64 :=
  match x.ratio?, y.ratio? with
  | some (a, b), some (c, d) => ofSigned (a * d + c * b) (b * d)
  | _, _ => .nan

def mul (x y : Binary64) : Binary64 :=
  match x.ratio?, y.ratio? with
  | some (a, b), some (c, d) => ofSigned (a * c) (b * d)
  | _, _ => .nan

def neg : Binary64 → Binary64
  | .nan => .nan
  | .infinite negative => .infinite !negative
  | .finite negative m e => .finite (!negative) m e

def isFinite : Binary64 → Bool
  | .finite .. => true
  | _ => false

def isZero : Binary64 → Bool
  | .finite _ m _ => m == 0
  | _ => false

end Binary64

end ModelContracts.Number
