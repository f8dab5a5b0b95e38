import ModelContracts.Number.Shortest
import ModelContracts.Text.Blank

/-! Floating point numbers as text: their spelling, and reading one. -/

namespace ModelContracts.Number

/-- Orders of magnitude from `lowest` up to below `limit` are written positionally, others with an
exponent; `pointed` writes a whole number with a decimal point. -/
structure FloatStyle where
  lowest : Int
  limit : Int
  pointed : Bool

/-- Numbers by themselves always show a point. -/
def aloneStyle : FloatStyle := ⟨-4, 16, true⟩

/-- Parts of a complex number show a point only where digits follow it. -/
def partStyle : FloatStyle := ⟨-4, 16, false⟩

def FloatStyle.exponent (e : Int) : List Char :=
  let ds := digitsOf e.natAbs
  (if e < 0 then '-' else '+') :: (if ds.length < 2 then '0' :: ds else ds)

def FloatStyle.digits (s : FloatStyle) (d : Digits) : List Char :=
  let order := d.point - 1
  if s.lowest ≤ order ∧ order < s.limit then
    if d.point ≤ 0 then
      '0' :: '.' :: List.replicate (-d.point).toNat '0' ++ d.digits
    else
      let n := d.point.toNat
      let whole := d.digits.take n ++ List.replicate (n - d.digits.length) '0'
      match d.digits.drop n with
      | [] => if s.pointed then whole ++ ['.', '0'] else whole
      | rest => whole ++ '.' :: rest
  else
    match d.digits with
    | [] => []
    | [c] => c :: 'e' :: FloatStyle.exponent order
    | c :: rest => c :: '.' :: rest ++ 'e' :: FloatStyle.exponent order

def FloatStyle.text (s : FloatStyle) : Binary64 → String
  | .nan => "nan"
  | .infinite negative => if negative then "-inf" else "inf"
  | .finite negative m q =>
    let body := if m = 0 then s.digits ⟨['0'], 1⟩ else s.digits (shortest m q)
    String.ofList (if negative then '-' :: body else body)

def Binary64.text (x : Binary64) : String := aloneStyle.text x

/-- A complex number: the real part is left out when it is the positive zero. -/
def complexText (re im : Binary64) : String :=
  let imag := partStyle.text im
  if re = .finite false 0 Binary64.leastExponent then imag ++ "j"
  else
    let signed := match imag.toList with
      | '-' :: _ => imag
      | _ => "+" ++ imag
    "(" ++ partStyle.text re ++ signed ++ "j)"

/-- Leading digits, in which single underscores may stand between two digits, as a number with
their count, and the rest. -/
def leadingDigits : Bool → Nat → Nat → List Char → Nat × Nat × List Char
  | _, value, count, [] => (value, count, [])
  | after, value, count, c :: rest =>
    if '0' ≤ c ∧ c ≤ '9' then leadingDigits true (value * 10 + (c.toNat - 48)) (count + 1) rest
    else if c = '_' ∧ after then
      match rest with
      | d :: _ => if '0' ≤ d ∧ d ≤ '9' then leadingDigits false value count rest else (value, count, c :: rest)
      | [] => (value, count, [c])
    else (value, count, c :: rest)

def leadingSign : List Char → Bool × List Char
  | '-' :: rest => (true, rest)
  | '+' :: rest => (false, rest)
  | cs => (false, cs)

/-- Digits with an optional fraction and an optional exponent, as a whole number and the power of
ten to multiply it with. -/
def decimalNumber? (cs : List Char) : Option (Nat × Int) := do
  let (whole, wholeCount, rest) := leadingDigits false 0 0 cs
  let (value, count, fractionCount, rest) := match rest with
    | '.' :: more =>
      let (value, n, rest) := leadingDigits false whole 0 more
      (value, wholeCount + n, n, rest)
    | _ => (whole, wholeCount, 0, rest)
  if count = 0 then none
  match rest with
  | [] => some (value, -(fractionCount : Int))
  | c :: more =>
    if c = 'e' ∨ c = 'E' then
      let (negative, more) := leadingSign more
      let (e, n, rest) := leadingDigits false 0 0 more
      if n = 0 ∨ rest ≠ [] then none
      else some (value, (if negative then -(e : Int) else e) - fractionCount)
    else none

def Binary64.ofText? (s : String) : Option Binary64 :=
  let (negative, body) := leadingSign (Text.trimmedChars s.toList)
  let word := body.map Text.lowerAsciiChar
  if word = ['n', 'a', 'n'] then some .nan
  else if word = ['i', 'n', 'f'] ∨ word = "infinity".toList then some (.infinite negative)
  else (decimalNumber? body).map fun (digits, e) => .ofDecimal negative digits e

end ModelContracts.Number
