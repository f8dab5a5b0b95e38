import ModelContracts.TypeExpr.Entries

/-!
Which values are the same key of a mapping. Numbers of all kinds are one key when they are equal, texts
when they spell the same, and every other value, a number that is none among them, is a key by itself.
-/

namespace ModelContracts

open Number

/-- Keys among which being the same key is an equivalence. -/
structure Comparable (K : Value → Prop) : Prop where
  refl : ∀ a, K a → a.sameKey a = true
  symm : ∀ a b, K a → K b → a.sameKey b = true → b.sameKey a = true
  trans : ∀ a b c, K a → K b → K c → a.sameKey b = true → b.sameKey c = true → a.sameKey c = true

/-! Magnitudes. -/

inductive Size where
  | ratio (q : Rat)
  | infinite (negative : Bool)

namespace Magnitude

def size? : Magnitude → Option Size
  | .ratio n d => some (.ratio (mkRat n d))
  | .infinite negative => some (.infinite negative)
  | _ => none

def Proper : Magnitude → Prop
  | .ratio _ d => d ≠ 0
  | _ => True

theorem equal_iff {x y : Magnitude} (hx : x.Proper) (hy : y.Proper) :
    x.equal y = true ↔ ∃ s, x.size? = some s ∧ y.size? = some s := by
  cases x with
  | ratio a b =>
    cases y with
    | ratio c d =>
      have hratio : a * d = c * b ↔ mkRat c d = mkRat a b := by
        rw [eq_comm, Rat.mkRat_eq_iff hy hx]
      simp [equal, size?, hratio]
    | _ => simp [equal, size?]
  | infinite a =>
    cases y with
    | infinite b => cases a <;> cases b <;> simp [equal, size?]
    | _ => simp [equal, size?]
  | _ => simp [equal, size?]

end Magnitude

theorem scaleDown_proper {base : Nat} (hbase : 0 < base) (e : Int) (n : Nat) :
    (scaleDown base e n 1).2 ≠ 0 := by
  have hpow : base.pow e.toNat ≠ 0 := Nat.ne_of_gt (Nat.pow_pos hbase)
  rw [scaleDown]
  split
  · rwa [Nat.one_mul]
  · exact Nat.one_ne_zero

theorem Number.Binary64.magnitude_proper (x : Binary64) : x.magnitude.Proper := by
  cases x with
  | finite negative m e => exact scaleDown_proper (by decide) (-e) m
  | _ => trivial

theorem Number.Decimal.magnitude_proper (x : Decimal) : x.magnitude.Proper := by
  cases x with
  | finite negative c e => exact scaleDown_proper (by decide) (-e) c
  | infinite => trivial
  | nan negative signaling payload => cases signaling <;> trivial

namespace Value

variable {a b v : Value}

/-- What a value is as a key. -/
inductive Core where
  | number (re im : Size)
  | text (s : String)
  | alone (v : Value)

def standsAlone : Value → Bool
  | .none | .bytes _ | .type (.cls _) | .date .. | .moment .. | .float _ | .complex .. => true
  | .decimal (.nan _ signaling _) => !signaling
  | _ => false

def sizes? (v : Value) : Option (Size × Size) :=
  v.number?.bind fun (re, im) => re.size?.bind fun r => im.size?.map fun i => (r, i)

def core? (v : Value) : Option Core :=
  match v.sizes? with
  | some (r, i) => some (.number r i)
  | Option.none => match v.text? with
    | some s => some (.text s)
    | Option.none => if v.standsAlone then some (.alone v) else Option.none

def wellFormed : Value → Bool
  | .fraction f => f.den ≠ 0
  | _ => true

/-- Numbers of all kinds, texts, octets, classes, dates and moments, and nothing at all. -/
def IsKey (v : Value) : Prop := v.core?.isSome = true ∧ v.wellFormed = true

theorem number_proper (hv : v.IsKey) {re im : Magnitude} (h : v.number? = some (re, im)) :
    re.Proper ∧ im.Proper := by
  have hone : (1 : Nat) ≠ 0 := by decide
  cases v with
  | fraction f =>
    cases h
    have hden : f.den ≠ 0 := of_decide_eq_true hv.2
    exact ⟨hden, hone⟩
  | float x =>
    cases h
    exact ⟨x.magnitude_proper, hone⟩
  | complex x y =>
    cases h
    exact ⟨x.magnitude_proper, y.magnitude_proper⟩
  | decimal x =>
    cases h
    exact ⟨x.magnitude_proper, hone⟩
  | member owner mixin label raw =>
    cases mixin <;> cases raw <;> cases h
    exact ⟨hone, hone⟩
  | bool | int | number =>
    cases h
    exact ⟨hone, hone⟩
  | _ => cases h

theorem no_text_of_number {n : Magnitude × Magnitude} (h : v.number? = some n) :
    v.text? = Option.none ∧ v.octets? = Option.none := by
  cases v with
  | member owner mixin label raw =>
    cases mixin <;> cases raw <;> cases h
    exact ⟨rfl, rfl⟩
  | bool | int | number | float | complex | decimal | fraction => exact ⟨rfl, rfl⟩
  | _ => cases h

theorem no_number_of_text {s : String} (h : v.text? = some s) : v.number? = Option.none := by
  cases hn : v.number? with
  | none => rfl
  | some n =>
    rw [(no_text_of_number hn).1] at h
    cases h

theorem equal_number {re im : Magnitude} (h : a.number? = some (re, im)) :
    a.equal b = true ↔
      ∃ n, b.number? = some n ∧ re.equal n.1 = true ∧ im.equal n.2 = true := by
  have hatoms : a.equal b = a.atomsEqual b := by
    cases a with
    | member owner mixin label raw => cases mixin <;> first | simp [equal] | cases h
    | bool | int | number | float | complex | decimal | fraction => simp [equal]
    | _ => cases h
  rw [hatoms, atomsEqual, h, (no_text_of_number h).1, (no_text_of_number h).2]
  cases hb : b.number? with
  | none => simp
  | some n => simp

theorem equal_text {s : String} (h : a.text? = some s) : a.equal b = true ↔ b.text? = some s := by
  have hatoms : a.equal b = a.atomsEqual b := by
    cases a with
    | member owner mixin label raw => cases mixin <;> first | simp [equal] | cases h
    | text => simp [equal]
    | _ => cases h
  rw [hatoms, atomsEqual, no_number_of_text h, h]
  cases hb : b.text? with
  | none =>
    have ho : a.octets? = Option.none := by
      cases a <;> first | rfl | cases h
    simp [ho]
  | some t => simp [eq_comm (a := s)]

theorem equal_sizes (ha : a.IsKey) (hb : b.IsKey) {n : Magnitude × Magnitude}
    (h : a.number? = some n) :
    a.equal b = true ↔ ∃ s, a.sizes? = some s ∧ b.sizes? = some s := by
  obtain ⟨re, im⟩ := n
  have hproper := number_proper ha h
  rw [equal_number h]
  constructor
  · intro ⟨n', hb', hre, him⟩
    have hproper' := number_proper hb hb'
    obtain ⟨r, hr, hr'⟩ := (Magnitude.equal_iff hproper.1 hproper'.1).1 hre
    obtain ⟨i, hi, hi'⟩ := (Magnitude.equal_iff hproper.2 hproper'.2).1 him
    exact ⟨(r, i), by simp [sizes?, h, hr, hi], by simp [sizes?, hb', hr', hi']⟩
  · intro ⟨s, hs, hs'⟩
    cases hb' : b.number? with
    | none =>
      rw [sizes?, hb'] at hs'
      cases hs'
    | some n' =>
      have hproper' := number_proper hb hb'
      simp only [sizes?, h, hb', Option.bind_some, Option.bind_eq_some_iff, Option.map_eq_some_iff]
        at hs hs'
      obtain ⟨r, hr, i, hi, rfl⟩ := hs
      obtain ⟨r', hr', i', hi', heq⟩ := hs'
      cases heq
      exact ⟨n', rfl, (Magnitude.equal_iff hproper.1 hproper'.1).2 ⟨r, hr, hr'⟩,
        (Magnitude.equal_iff hproper.2 hproper'.2).2 ⟨i, hi, hi'⟩⟩

theorem eq_of_sameNumber (h : a.sameNumber b = true) : a = b := by
  cases a <;> cases b <;> simp_all [sameNumber]

theorem sameKey_self_of_standsAlone (h : v.standsAlone = true) : v.sameKey v = true := by
  cases v with
  | type t =>
    cases t with
    | cls c => simp [sameKey, equal, TypeExpr.same]
    | _ => cases h
  | bytes => simp [sameKey, equal, atomsEqual, number?, text?, octets?]
  | float | complex | decimal => simp [sameKey, sameNumber]
  | none | date | moment => simp [sameKey, equal]
  | _ => cases h

theorem eq_of_equal (ha : a.standsAlone = true) (hn : a.number? = Option.none) (hb : b.IsKey)
    (h : a.equal b = true) : a = b := by
  cases a with
  | none => cases b <;> first | rfl | simp [equal, atomsEqual, number?, text?, octets?] at h
  | date y m d =>
    cases b with
    | date y' m' d' => simpa [equal, and_assoc] using h
    | _ => simp [equal, atomsEqual, number?, text?, octets?] at h
  | moment y m d s u z =>
    cases b with
    | moment y' m' d' s' u' z' => simpa [equal, and_assoc] using h
    | _ => simp [equal, atomsEqual, number?, text?, octets?] at h
  | type t =>
    cases t with
    | cls c =>
      cases b with
      | type u => cases u <;> simp_all [equal, TypeExpr.same]
      | _ => simp [equal, atomsEqual, number?, text?, octets?] at h
    | _ => cases ha
  | bytes data =>
    have ht : (bytes data).text? = Option.none := rfl
    have hoctets : (bytes data).octets? = some data := rfl
    have hdata : b.octets? = some data := by
      cases ho : b.octets? with
      | none => simp [equal, atomsEqual, hn, ht, hoctets, ho] at h
      | some other => simpa [equal, atomsEqual, hn, ht, hoctets, ho, eq_comm (a := data)] using h
    -- A buffer with the same octets is no key.
    have hkey := hb.1
    cases b with
    | bytes => exact congrArg bytes (Option.some.inj hdata).symm
    | buffer => cases hkey
    | _ => cases hdata
  | float | complex | decimal => cases hn
  | _ => cases ha

theorem core?_eq_number {r i : Size} :
    v.core? = some (.number r i) ↔ v.sizes? = some (r, i) := by
  constructor
  · intro h
    rw [core?] at h
    split at h
    next hs =>
      cases h
      exact hs
    next =>
      split at h
      · cases h
      · split at h <;> cases h
  · intro h
    rw [core?, h]

theorem core?_eq_text {s : String} : v.core? = some (.text s) ↔ v.text? = some s := by
  constructor
  · intro h
    rw [core?] at h
    split at h
    · cases h
    · split at h
      next ht =>
        cases h
        exact ht
      next => split at h <;> cases h
  · intro h
    rw [core?, sizes?, no_number_of_text h, Option.bind_none, h]

theorem core?_eq_alone {w : Value} (h : v.core? = some (.alone w)) :
    v = w ∧ v.standsAlone = true := by
  rw [core?] at h
  split at h
  · cases h
  · split at h
    · cases h
    · split at h
      next hv =>
        cases h
        exact ⟨rfl, hv⟩
      next => cases h

theorem core?_of_equal (ha : a.IsKey) (hb : b.IsKey) (h : a.equal b = true) : a.core? = b.core? := by
  cases hn : a.number? with
  | some n =>
    obtain ⟨s, hs, hs'⟩ := (equal_sizes ha hb hn).1 h
    rw [core?_eq_number.2 hs, core?_eq_number.2 hs']
  | none =>
    cases ht : a.text? with
    | some t => rw [core?_eq_text.2 ht, core?_eq_text.2 ((equal_text ht).1 h)]
    | none =>
      obtain ⟨x, hx⟩ := Option.isSome_iff_exists.1 ha.1
      cases x with
      | number r i =>
        rw [core?_eq_number, sizes?, hn] at hx
        cases hx
      | text s =>
        rw [core?_eq_text, ht] at hx
        cases hx
      | alone w => rw [eq_of_equal (core?_eq_alone hx).2 hn hb h]

theorem sameKey_of_core? (ha : a.IsKey) (hb : b.IsKey) (h : a.core? = b.core?) :
    a.sameKey b = true := by
  obtain ⟨x, hx⟩ := Option.isSome_iff_exists.1 ha.1
  have hx' : b.core? = some x := h ▸ hx
  cases x with
  | number r i =>
    rw [core?_eq_number] at hx hx'
    obtain ⟨n, hn, -⟩ := Option.bind_eq_some_iff.1 hx
    simp [sameKey, (equal_sizes ha hb hn).2 ⟨(r, i), hx, hx'⟩]
  | text s =>
    rw [core?_eq_text] at hx hx'
    simp [sameKey, (equal_text hx).2 hx']
  | alone w =>
    obtain ⟨rfl, halone⟩ := core?_eq_alone hx
    obtain ⟨rfl, -⟩ := core?_eq_alone hx'
    exact sameKey_self_of_standsAlone halone

/-- Being the same key is having the same core. -/
theorem sameKey_iff (ha : a.IsKey) (hb : b.IsKey) : a.sameKey b = true ↔ a.core? = b.core? := by
  constructor
  · intro h
    rw [sameKey, Bool.or_eq_true] at h
    cases h with
    | inl hequal => exact core?_of_equal ha hb hequal
    | inr hsame => rw [eq_of_sameNumber hsame]
  · exact sameKey_of_core? ha hb

theorem comparable_isKey : Comparable IsKey where
  refl _ ha := (sameKey_iff ha ha).2 rfl
  symm _ _ ha hb h := (sameKey_iff hb ha).2 ((sameKey_iff ha hb).1 h).symm
  trans _ _ _ ha hb hc hab hbc :=
    (sameKey_iff ha hc).2 (((sameKey_iff ha hb).1 hab).trans ((sameKey_iff hb hc).1 hbc))

end Value

end ModelContracts
