import ModelContracts.Number.Binary64

/-!
The shortest decimal that reads back as a given floating point number. For one, two, … seventeen
digits the two neighbours of the number on that decimal grid are tried; the first grid with a hit
wins, and of two hits the nearer one.
-/

namespace ModelContracts.Number

structure Digits where
  digits : List Char
  point : Int
deriving Repr, DecidableEq

def digitsOf (n : Nat) : List Char := Nat.toDigits 10 n

def Digits.ofNat (n : Nat) (e : Int) : Digits :=
  let ds := digitsOf n
  let kept := (ds.reverse.dropWhile (· = '0')).reverse
  ⟨if kept.isEmpty then ['0'] else kept, ds.length + e⟩

def decimalOrder (num den : Nat) : Nat → Int → Int
  | 0, guess => guess
  | fuel + 1, guess =>
    let (n, d) := scaleDown 10 guess num den
    if n < d then guess else decimalOrder num den fuel (guess + 1)

/-- The hit of the grid `10 ^ e`, if one of its two points next to `m * 2 ^ q` lies between the
bounds `(4 * m - below) * 2 ^ (q - 2)` and `(4 * m + 2) * 2 ^ (q - 2)`. -/
def gridHit (m : Nat) (q : Int) (below : Nat) (e : Int) : Option Nat :=
  let (un, ud) := scaleDown 2 (2 - q) 1 1
  let (gn, gd) := scaleDown 10 (-e) 1 1
  let x := 4 * m * un * gd
  let unit := gn * ud
  let a := x / unit
  let low := (4 * m - below) * un * gd
  let high := (4 * m + 2) * un * gd
  let even := m % 2 = 0
  let hitLow := if even then low ≤ a * unit else low < a * unit
  let hitHigh := if even then (a + 1) * unit ≤ high else (a + 1) * unit < high
  let r := x % unit
  if hitLow ∧ hitHigh then
    some (if 2 * r < unit then a else if unit < 2 * r then a + 1 else if a % 2 = 0 then a else a + 1)
  else if hitLow then some a
  else if hitHigh then some (a + 1)
  else none

def firstHit (m : Nat) (q : Int) (below : Nat) (order : Int) : Nat → Nat → Digits
  | 0, _ => Digits.ofNat m 0
  | fuel + 1, width =>
    match gridHit m q below (order - width) with
    | some n => Digits.ofNat n (order - width)
    | none => firstHit m q below order fuel (width + 1)

def shortest (m : Nat) (q : Int) : Digits :=
  let below := if m = Nat.pow 2 52 ∧ Binary64.leastExponent < q then 1 else 2
  let (n, d) := scaleDown 2 (-q) m 1
  let order := decimalOrder n d 5 (((m.log2 : Int) + q) * 30103 / 100000)
  firstHit m q below order 17 1

end ModelContracts.Number
