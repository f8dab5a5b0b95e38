import Mathlib.Data.List.TakeWhile
import Mathlib.Tactic.SplitIfs
import ModelContracts.Number.Decimal
import ModelContracts.Proofs.Text.Plain
import ModelContracts.Proofs.Text.Pieces

/-!
Decimals and fractions read back from their texts. A decimal is written as digits, with a point between
them and a power of ten behind them where needed. Reading such a text gives back the coefficient and the
exponent that were written.
-/

namespace ModelContracts.Number

/-! Leading digits. -/

variable {ds : List Char}

theorem isDigit_iff {c : Char} : c.isDigit = true ↔ '0' ≤ c ∧ c ≤ '9' := by
  rw [Char.isDigit_iff_toNat]
  exact Iff.rfl

theorem leadingDigits_of_digits (hds : ∀ c ∈ ds, c.isDigit = true) {rest : List Char}
    (hrest : ∀ c ∈ rest.head?, c.isDigit = false ∧ c ≠ '_') (after : Bool) (value count : Nat) :
    leadingDigits after value count (ds ++ rest) =
      (Nat.ofDigitChars 10 ds value, count + ds.length, rest) := by
  induction ds generalizing after value count with
  | nil =>
    cases rest with
    | nil => simp [leadingDigits]
    | cons c rest =>
      obtain ⟨hdigit, hline⟩ := hrest c rfl
      have hnot : ¬ ('0' ≤ c ∧ c ≤ '9') := by
        rw [← isDigit_iff, hdigit]
        exact Bool.false_ne_true
      unfold leadingDigits
      simp [hnot, hline]
  | cons d ds ih =>
    obtain ⟨hd, hds⟩ := List.forall_mem_cons.1 hds
    have hvalue : value * 10 + (d.toNat - 48) = 10 * value + (d.toNat - '0'.toNat) := by
      rw [Nat.mul_comm]
      rfl
    unfold leadingDigits
    rw [List.cons_append, List.length_cons]
    dsimp only
    rw [if_pos (isDigit_iff.1 hd), ih hds, Nat.ofDigitChars_cons, hvalue, Nat.add_assoc, Nat.add_comm 1]

theorem isDigit_digitsOf (n : Nat) : ∀ c ∈ digitsOf n, c.isDigit = true := fun _ hc =>
  Nat.isDigit_of_mem_toDigits (by decide) (by decide) hc

theorem digitsOf_ne_nil (n : Nat) : digitsOf n ≠ [] := Nat.toDigits_ne_nil

theorem ofDigitChars_digitsOf (n : Nat) : Nat.ofDigitChars 10 (digitsOf n) 0 = n :=
  Nat.ofDigitChars_toDigits (by decide) (by decide)

theorem leadingDigits_digitsOf (n : Nat) :
    leadingDigits false 0 0 (digitsOf n) = (n, (digitsOf n).length, []) := by
  have h := leadingDigits_of_digits (isDigit_digitsOf n) (show ∀ c ∈ [].head?, _ from nofun) false 0 0
  rwa [List.append_nil, ofDigitChars_digitsOf, Nat.zero_add] at h

/-! Digits with a point and a power of ten. -/

/-- The digits before an exponent as a number, how many there are and how many behind the point, and the
rest. -/
def mantissa (cs : List Char) : Nat × Nat × Nat × List Char :=
  let (whole, wholeCount, rest) := leadingDigits false 0 0 cs
  match rest with
  | '.' :: more =>
    let (value, n, rest) := leadingDigits false whole 0 more
    (value, wholeCount + n, n, rest)
  | _ => (whole, wholeCount, 0, rest)

/-- The power of ten that an exponent names. -/
def power? : List Char → Option Int
  | [] => some 0
  | c :: more =>
    if c = 'e' ∨ c = 'E' then
      let (negative, more) := leadingSign more
      let (e, n, rest) := leadingDigits false 0 0 more
      if n = 0 ∨ rest ≠ [] then none else some (if negative then -(e : Int) else e)
    else none

theorem decimalNumber?_eq (cs : List Char) : decimalNumber? cs =
    if (mantissa cs).2.1 = 0 then none
    else (power? (mantissa cs).2.2.2).map fun e => ((mantissa cs).1, e - ((mantissa cs).2.2.1 : Int)) := by
  have hrest : ∀ (value fractionCount : Nat) (rest : List Char),
      (match rest with
        | [] => some (value, -(fractionCount : Int))
        | c :: more =>
          if c = 'e' ∨ c = 'E' then
            let (negative, more) := leadingSign more
            let (e, n, rest) := leadingDigits false 0 0 more
            if n = 0 ∨ rest ≠ [] then none
            else some (value, (if negative then -(e : Int) else e) - fractionCount)
          else none) = (power? rest).map fun e => (value, e - (fractionCount : Int)) := by
    intro value fractionCount rest
    cases rest with
    | nil => simp [power?]
    | cons c more =>
      dsimp only [power?]
      split_ifs <;> rfl
  unfold decimalNumber?
  rw [← hrest]
  rfl

def pointed (whole fraction : List Char) (power : Int) : List Char :=
  whole ++ ((if fraction = [] then [] else '.' :: fraction) ++
    if power = 0 then [] else exponentMark power)

variable {whole fraction : List Char} {power : Int}

theorem power?_mark : power? (if power = 0 then [] else exponentMark power) = some power := by
  have hsign : leadingSign ((if power < 0 then '-' else '+') :: digitsOf power.natAbs) =
      (decide (power < 0), digitsOf power.natAbs) := by
    split_ifs with h <;> simp [leadingSign, h]
  split_ifs with hzero
  · rw [hzero]
    rfl
  · have hvalue : (if power < 0 then -(power.natAbs : Int) else power.natAbs) = power := by
      split_ifs <;> omega
    simp only [exponentMark, power?, or_true, if_true, hsign, leadingDigits_digitsOf]
    rw [if_neg (by simp [digitsOf_ne_nil])]
    simp only [decide_eq_true_eq, hvalue]

theorem mantissa_pointed (hwhole : ∀ c ∈ whole, c.isDigit = true)
    (hfraction : ∀ c ∈ fraction, c.isDigit = true) : mantissa (pointed whole fraction power) =
      (Nat.ofDigitChars 10 (whole ++ fraction) 0, whole.length + fraction.length, fraction.length,
        if power = 0 then [] else exponentMark power) := by
  have hmark : ∀ c ∈ (if power = 0 then [] else exponentMark power).head?,
      c.isDigit = false ∧ c ≠ '_' := by
    split_ifs
    · exact nofun
    · rintro c ⟨⟩
      decide
  have hpoint : ('.' : Char).isDigit = false ∧ '.' ≠ '_' := by decide
  unfold mantissa pointed
  by_cases hf : fraction = []
  · rw [if_pos hf, List.nil_append, leadingDigits_of_digits hwhole hmark]
    dsimp only
    split_ifs <;> simp [hf, exponentMark]
  · rw [if_neg hf, leadingDigits_of_digits hwhole (by rintro c ⟨⟩; exact hpoint)]
    simp only [List.cons_append, leadingDigits_of_digits hfraction hmark, Nat.ofDigitChars_append,
      Nat.zero_add]

theorem decimalNumber?_pointed (power : Int) (hne : whole ≠ []) (hwhole : ∀ c ∈ whole, c.isDigit = true)
    (hfraction : ∀ c ∈ fraction, c.isDigit = true) : decimalNumber? (pointed whole fraction power) =
      some (Nat.ofDigitChars 10 (whole ++ fraction) 0, power - fraction.length) := by
  have hcount : whole.length + fraction.length ≠ 0 := by
    have hlength : 0 < whole.length := List.length_pos_iff.2 hne
    omega
  rw [decimalNumber?_eq, mantissa_pointed hwhole hfraction, power?_mark, if_neg hcount]
  rfl

theorem ofDigitChars_zeros (n : Nat) (ds : List Char) :
    Nat.ofDigitChars 10 (List.replicate n '0' ++ ds) 0 = Nat.ofDigitChars 10 ds 0 := by
  induction n with
  | zero => rfl
  | succ n ih =>
    rw [List.replicate_succ, List.cons_append, Nat.ofDigitChars_cons]
    exact ih

/-- Digits are written with a point inside them unless it would stand at their end. -/
theorem point_inside {n : Nat} (h : n ≤ ds.length) :
    (match ds.drop n with
      | [] => ds ++ List.replicate (n - ds.length) '0'
      | rest => ds.take n ++ '.' :: rest) =
      ds.take n ++ if ds.drop n = [] then [] else '.' :: ds.drop n := by
  split
  next hdrop =>
    have hlength : ds.length ≤ n := List.drop_eq_nil_iff.1 hdrop
    simp [hdrop, List.take_of_length_le hlength, Nat.sub_eq_zero_of_le h]
  next hdrop => rw [if_neg hdrop]

/-- The text of a finite decimal has the digits of its coefficient, with a point and a power of ten that
make up its exponent. -/
theorem finiteChars_pointed (c : Nat) (e : Int) : ∃ whole fraction power,
    Decimal.finiteChars c e = pointed whole fraction power ∧ whole ≠ [] ∧
      (∀ d ∈ whole, d.isDigit = true) ∧ (∀ d ∈ fraction, d.isDigit = true) ∧
        Nat.ofDigitChars 10 (whole ++ fraction) 0 = c ∧ power - fraction.length = e := by
  have hne := digitsOf_ne_nil c
  have hdigits := isDigit_digitsOf c
  have hvalue := ofDigitChars_digitsOf c
  unfold Decimal.finiteChars
  generalize digitsOf c = ds at hne hdigits hvalue
  have hlength : 0 < ds.length := List.length_pos_iff.2 hne
  have hcut (n : Nat) (hn : 0 < n) : ds.take n ≠ [] ∧ (∀ d ∈ ds.take n, d.isDigit = true) ∧
      (∀ d ∈ ds.drop n, d.isDigit = true) ∧
        Nat.ofDigitChars 10 (ds.take n ++ ds.drop n) 0 = c := by
    refine ⟨?_, fun d hd => hdigits d (List.mem_of_mem_take hd),
      fun d hd => hdigits d (List.mem_of_mem_drop hd), by rwa [List.take_append_drop]⟩
    rw [ne_eq, List.take_eq_nil_iff, not_or]
    exact ⟨Nat.pos_iff_ne_zero.1 hn, hne⟩
  dsimp only
  by_cases hplain : e ≤ 0 ∧ -6 < e + ds.length
  · rw [if_pos hplain, if_pos rfl]
    by_cases hleft : e + ds.length ≤ 0
    · rw [if_pos hleft]
      have hzeros : ∀ d ∈ List.replicate (-(e + ds.length)).toNat '0', d.isDigit = true := by
        intro d hd
        rw [List.eq_of_mem_replicate hd]
        rfl
      refine ⟨['0'], List.replicate (-(e + ds.length)).toNat '0' ++ ds, 0, ?_, by simp, ?_, ?_, ?_, ?_⟩
      · simp [pointed, hne]
      · simp
      · exact List.forall_mem_append.2 ⟨hzeros, hdigits⟩
      · rw [List.singleton_append, ← List.cons_append, ← List.replicate_succ, ofDigitChars_zeros, hvalue]
      · rw [List.length_append, List.length_replicate]
        omega
    · obtain ⟨htake, hwhole, hfraction, hnumber⟩ := hcut (e + ds.length).toNat (by omega)
      rw [if_neg hleft]
      refine ⟨_, _, 0, (point_inside (by omega)).trans ?_, htake, hwhole, hfraction, hnumber, ?_⟩
      · rw [pointed, if_pos rfl, List.append_nil]
      · rw [List.length_drop]
        omega
  · obtain ⟨htake, hwhole, hfraction, hnumber⟩ := hcut 1 Nat.one_pos
    have hshifted : e + ds.length ≠ 1 := by omega
    rw [if_neg hplain, if_neg hshifted, if_neg (show ¬ (1 : Int) ≤ 0 by decide)]
    refine ⟨_, _, e + ds.length - 1, congrArg (· ++ _) ((point_inside hlength).trans rfl) |>.trans ?_,
      htake, hwhole, hfraction, hnumber, ?_⟩
    · rw [pointed, if_neg (show ¬ e + ds.length - 1 = 0 by omega), List.append_assoc]
    · rw [List.length_drop]
      omega

/-! Reading. -/

theorem forall_isDigit {p : Char → Prop} (h : ∀ n < 10, p (Char.ofNat (48 + n))) {c : Char}
    (hc : c.isDigit = true) : p c := by
  obtain ⟨hlow, hhigh⟩ : 48 ≤ c.toNat ∧ c.toNat ≤ 57 := Char.isDigit_iff_toNat.1 hc
  have hnumber : 48 + (c.toNat - 48) = c.toNat := by omega
  have hdigit := h (c.toNat - 48) (by omega)
  rwa [hnumber, Char.ofNat_toNat] at hdigit

theorem leadingSign_signed {cs : List Char} (h : ∀ c ∈ cs.head?, c.isDigit = true) (negative : Bool) :
    leadingSign (signed negative cs) = (negative, cs) := by
  cases negative with
  | true => rfl
  | false =>
    cases cs with
    | nil => rfl
    | cons c cs =>
      have hsign : c ≠ '-' ∧ c ≠ '+' :=
        forall_isDigit (p := fun c => c ≠ '-' ∧ c ≠ '+') (by decide) (h c rfl)
      simp [signed, leadingSign, hsign]

theorem mem_pointed (hwhole : ∀ c ∈ whole, c.isDigit = true) (hfraction : ∀ c ∈ fraction, c.isDigit = true)
    {c : Char} (hc : c ∈ pointed whole fraction power) : c.isDigit = true ∨ c ∈ ['.', 'E', '+', '-'] := by
  rw [pointed, List.mem_append, List.mem_append] at hc
  rcases hc with hc | hc | hc
  · exact Or.inl (hwhole c hc)
  · split_ifs at hc
    · cases hc
    · rcases List.mem_cons.1 hc with rfl | hc
      · exact Or.inr List.mem_cons_self
      · exact Or.inl (hfraction c hc)
  · split_ifs at hc with hzero
    · cases hc
    · rw [exponentMark, List.mem_cons, List.mem_cons] at hc
      rcases hc with rfl | rfl | hc
      · exact Or.inr (by decide)
      · split_ifs
        · exact Or.inr (by decide)
        · exact Or.inr (by decide)
      · exact Or.inl (isDigit_digitsOf _ c hc)

theorem trimmedChars_signed (hwhole : ∀ c ∈ whole, c.isDigit = true)
    (hfraction : ∀ c ∈ fraction, c.isDigit = true) (negative : Bool) :
    Text.trimmedChars (signed negative (pointed whole fraction power)) =
      signed negative (pointed whole fraction power) := by
  have hmark : ∀ c ∈ ['.', 'E', '+', '-'], Text.isBlank c = false := by decide
  have hall : ∀ c ∈ pointed whole fraction power, Text.isBlank c = false := fun c hc =>
    (mem_pointed hwhole hfraction hc).elim (forall_isDigit (p := fun c => Text.isBlank c = false) (by decide))
      (hmark c)
  apply Text.trimmedChars_of_not_blank
  cases negative with
  | true => exact List.forall_mem_cons.2 ⟨by decide, hall⟩
  | false => exact hall

/-- Every decimal that is a number is read back with the digits and the exponent that it had. -/
theorem Decimal.ofText?_text {d : Decimal} (h : ∀ negative signaling payload,
    d ≠ .nan negative signaling payload) : Decimal.ofText? d.text = some d := by
  cases d with
  | nan negative signaling payload => exact (h negative signaling payload rfl).elim
  | infinite negative => cases negative <;> decide +kernel
  | finite negative c e =>
    obtain ⟨whole, fraction, power, hchars, hne, hwhole, hfraction, hvalue, hpower⟩ :=
      finiteChars_pointed c e
    have hnumber := decimalNumber?_pointed power hne hwhole hfraction
    rw [hvalue, hpower] at hnumber
    rw [Decimal.text, Decimal.ofText?, String.toList_ofList, hchars, trimmedChars_signed hwhole hfraction]
    obtain ⟨d, ds, hbody, hd⟩ : ∃ d ds, pointed whole fraction power = d :: ds ∧ d.isDigit = true := by
      obtain ⟨d, ds, rfl⟩ := List.exists_cons_of_ne_nil hne
      exact ⟨d, _, rfl, hwhole d List.mem_cons_self⟩
    have hletter : ∀ c ∈ ['i', 'n', 's'], Text.lowerAsciiChar d ≠ c :=
      forall_isDigit (p := fun d => ∀ c ∈ ['i', 'n', 's'], Text.lowerAsciiChar d ≠ c) (by decide) hd
    simp only [List.forall_mem_cons, List.not_mem_nil, false_imp_iff, implies_true, and_true] at hletter
    rw [hbody] at hnumber ⊢
    rw [leadingSign_signed (by rintro c ⟨⟩; exact hd)]
    simp [hletter, hnumber]

/-! Whole numbers and fractions. -/

/-- A number that is written with digits only. -/
def natural? (cs : List Char) : Option Nat :=
  let (n, count, rest) := leadingDigits false 0 0 cs
  if count = 0 ∨ rest ≠ [] then none else some n

def integer? (cs : List Char) : Option Int :=
  let (negative, digits) := leadingSign cs
  (natural? digits).map fun (n : Nat) => if negative then -(n : Int) else n

/-- The fraction that a whole number, or two with a stroke between them, stand for. -/
def Fraction.ofText? (s : String) : Option Fraction :=
  match Text.cut '/' s with
  | none => (integer? s.toList).bind fun n => Fraction.of? n 1
  | some (num, den) => (integer? num.toList).bind fun n => (natural? den.toList).bind fun d => Fraction.of? n d

theorem toList_toString (n : Int) : (toString n).toList = signed (decide (n < 0)) (digitsOf n.natAbs) := by
  rw [Int.toString_eq_repr, Int.repr_eq_if]
  split_ifs with hn
  · have hnat : n.toNat = n.natAbs := by omega
    rw [Nat.toList_repr, signed, if_neg (by simpa using hn), hnat]
    rfl
  · have hnat : (-n).toNat = n.natAbs := by omega
    rw [String.toList_append, Nat.toList_repr, signed, if_pos (by simpa using hn), hnat]
    rfl

theorem natural?_digitsOf (n : Nat) : natural? (digitsOf n) = some n := by
  simp [natural?, leadingDigits_digitsOf, digitsOf_ne_nil]

theorem integer?_toString (n : Int) : integer? (toString n).toList = some n := by
  have hvalue : (if n < 0 then -(n.natAbs : Int) else n.natAbs) = n := by
    split_ifs <;> omega
  rw [integer?, toList_toString,
    leadingSign_signed fun c hc => isDigit_digitsOf _ c (List.mem_of_head? hc)]
  dsimp only
  rw [natural?_digitsOf, Option.map_some]
  simp only [decide_eq_true_eq, hvalue]

theorem stroke_not_mem (n : Int) : '/' ∉ (toString n).toList := by
  have hdigits : '/' ∉ digitsOf n.natAbs := fun hmem => by
    have hdigit := isDigit_digitsOf _ '/' hmem
    cases hdigit
  rw [toList_toString, signed]
  split_ifs
  · simpa using hdigits
  · exact hdigits

/-- The fraction of two numbers is what they stand for. -/
theorem Fraction.of?_equal (n : Int) {d : Nat} (h : d ≠ 0) :
    ∃ g, Fraction.of? n d = some g ∧ g.num * d = n * g.den := by
  have hzero : (d : Int) ≠ 0 := by omega
  refine ⟨_, by rw [Fraction.of?, if_neg hzero], ?_⟩
  have hn : (Int.gcd n d : Int) ∣ n := Int.gcd_dvd_left ..
  have hd : (Int.gcd n d : Int) ∣ d := Int.gcd_dvd_right ..
  dsimp only
  rw [if_neg (by omega), Int.natAbs_natCast, Int.natCast_ediv]
  calc n / (Int.gcd n d : Int) * d
      = n / (Int.gcd n d : Int) * ((Int.gcd n d : Int) * (d / (Int.gcd n d : Int))) := by
        rw [Int.mul_ediv_cancel' hd]
    _ = n * (d / (Int.gcd n d : Int)) := by rw [← Int.mul_assoc, Int.ediv_mul_cancel hn]

theorem Fraction.ofText?_text {f : Fraction} (h : f.den ≠ 0) :
    ∃ g, Fraction.ofText? f.text = some g ∧ g.num * f.den = f.num * g.den := by
  obtain ⟨g, hg, hequal⟩ := Fraction.of?_equal f.num h
  refine ⟨g, ?_, hequal⟩
  unfold Fraction.text Fraction.ofText?
  split_ifs with hone
  · rw [hone] at hg
    rw [Text.cut_of_not_mem (stroke_not_mem f.num)]
    dsimp only
    rw [integer?_toString, Option.bind_some]
    exact hg
  · have hchars : (toString f.num ++ "/" ++ toString f.den).toList =
        (toString f.num).toList ++ '/' :: (toString f.den).toList := by
      simp [String.toList_append]
    have hden : natural? (toString f.den).toList = some f.den := by
      rw [Nat.toString_eq_repr, Nat.toList_repr]
      exact natural?_digitsOf f.den
    rw [Text.cut_append hchars (stroke_not_mem f.num)]
    dsimp only
    rw [integer?_toString, Option.bind_some, hden, Option.bind_some]
    exact hg

end ModelContracts.Number
