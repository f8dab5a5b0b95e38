import Mathlib.Data.List.Basic
import Mathlib.Tactic.SplitIfs
import ModelContracts.File.Head

/-!
Reading what was written. The octets of a text decode to the text, in one piece or in portions; line
ends are made uniform on the way, and the start of a file is the start of its text.
-/

namespace ModelContracts.Text

theorem decodeFrom_cons_iff {st final : Utf8State} {b : UInt8} {rest : List UInt8}
    {cs : List Char} : decodeFrom st (b :: rest) = some (cs, final) ↔
      ∃ st' c? ds, st.step b.toNat = some (st', c?) ∧ decodeFrom st' rest = some (ds, final) ∧
        cs = c?.toList ++ ds := by
  constructor
  · intro h
    rw [decodeFrom] at h
    split at h
    · cases h
    next st' c? hstep =>
      split at h
      · cases h
      next ds final' hrest =>
        cases h
        exact ⟨st', c?, ds, hstep, hrest, rfl⟩
  · rintro ⟨st', c?, ds, hstep, hrest, rfl⟩
    simp only [decodeFrom, hstep, hrest]

/-- Octets are decoded in parts. -/
theorem decodeFrom_append_iff {st final : Utf8State} {a b : List UInt8} {cs : List Char} :
    decodeFrom st (a ++ b) = some (cs, final) ↔
      ∃ before st' after, decodeFrom st a = some (before, st') ∧
        decodeFrom st' b = some (after, final) ∧ cs = before ++ after := by
  induction a generalizing st cs with
  | nil =>
    constructor
    · exact fun h => ⟨[], st, cs, rfl, h, rfl⟩
    · rintro ⟨before, st', after, hbefore, hafter, rfl⟩
      cases hbefore
      exact hafter
  | cons x a ih =>
    simp only [List.cons_append, decodeFrom_cons_iff, ih]
    constructor
    · rintro ⟨st₁, c?, ds, hstep, ⟨before, st₂, after, hbefore, hafter, rfl⟩, rfl⟩
      exact ⟨c?.toList ++ before, st₂, after, ⟨st₁, c?, before, hstep, hbefore, rfl⟩, hafter,
        (List.append_assoc _ _ _).symm⟩
    · rintro ⟨_, st₂, after, ⟨st₁, c?, before, hstep, hbefore, rfl⟩, hafter, rfl⟩
      exact ⟨st₁, c?, before ++ after, hstep, ⟨before, st₂, after, hbefore, hafter, rfl⟩,
        List.append_assoc _ _ _⟩

/-! A character of each length. -/

theorem step_ascii {v : Nat} (h : v ≤ 127) :
    Utf8State.step .ready v = some (.ready, some (Char.ofNat v)) := by
  rw [Utf8State.step, if_pos (by omega)]

theorem step_inside {left lo hi acc b : Nat} (h : lo ≤ b ∧ b ≤ hi) :
    Utf8State.step (.inside (left + 1) lo hi acc) b =
      some (.inside left 0x80 0xBF (acc * 64 + (b - 0x80)), none) := by
  rw [Utf8State.step, if_pos h]

theorem step_last {lo hi acc b : Nat} (h : lo ≤ b ∧ b ≤ hi) :
    Utf8State.step (.inside 0 lo hi acc) b =
      some (.ready, some (Char.ofNat (acc * 64 + (b - 0x80)))) := by
  rw [Utf8State.step, if_pos h]

theorem toNat_ofNat {n : Nat} (h : n < 256) : (UInt8.ofNat n).toNat = n := by
  simp [Nat.mod_eq_of_lt h]

theorem decodeFrom_last {lo hi acc b : Nat} (h : lo ≤ b ∧ b ≤ hi) (hb : b < 256) :
    decodeFrom (.inside 0 lo hi acc) [UInt8.ofNat b] =
      some ([Char.ofNat (acc * 64 + (b - 0x80))], .ready) := by
  rw [decodeFrom_cons_iff]
  exact ⟨.ready, _, [], by rw [toNat_ofNat hb, step_last h], rfl, rfl⟩

theorem decodeFrom_inside {left lo hi acc b : Nat} {rest : List UInt8} {cs : List Char}
    (h : lo ≤ b ∧ b ≤ hi) (hb : b < 256)
    (hrest : decodeFrom (.inside left 0x80 0xBF (acc * 64 + (b - 0x80))) rest =
      some (cs, .ready)) :
    decodeFrom (.inside (left + 1) lo hi acc) (UInt8.ofNat b :: rest) = some (cs, .ready) := by
  rw [decodeFrom_cons_iff]
  exact ⟨_, none, cs, by rw [toNat_ofNat hb, step_inside h], hrest, rfl⟩

theorem decodeFrom_first {st : Utf8State} {b : Nat} {rest : List UInt8} {cs : List Char}
    (hb : b < 256) (hstep : Utf8State.step .ready b = some (st, none))
    (hrest : decodeFrom st rest = some (cs, .ready)) :
    decodeFrom .ready (UInt8.ofNat b :: rest) = some (cs, .ready) := by
  rw [decodeFrom_cons_iff]
  exact ⟨st, none, cs, by rw [toNat_ofNat hb, hstep], hrest, rfl⟩

theorem decodeFrom_encodeChar (c : Char) :
    decodeFrom .ready (String.utf8EncodeChar c) = some ([c], .ready) := by
  have hvalid : c.val.toNat < 0xD800 ∨ 0xDFFF < c.val.toNat ∧ c.val.toNat < 0x110000 := c.valid
  have hchar : Char.ofNat c.val.toNat = c := Char.ofNat_toNat c
  unfold String.utf8EncodeChar
  generalize c.val.toNat = v at hvalid hchar
  subst hchar
  dsimp only
  split_ifs with h₁ h₂ h₃
  · rw [decodeFrom_cons_iff]
    exact ⟨.ready, _, [], by rw [toNat_ofNat (by omega), step_ascii h₁], rfl, rfl⟩
  · have hstep : Utf8State.step .ready (v / 64 % 32 + 192) =
        some (.inside 0 0x80 0xBF (v / 64), none) := by
      rw [Utf8State.step, if_neg (by omega), if_neg (by omega), if_pos (by omega)]
      rw [show v / 64 % 32 + 192 - 0xC0 = v / 64 by omega]
    have hsum : v / 64 * 64 + (v % 64 + 128 - 0x80) = v := by omega
    refine decodeFrom_first (by omega) hstep ?_
    rw [decodeFrom_last (by omega) (by omega), hsum]
  · -- The second octet is bounded where a shorter form or no character would be meant.
    have hstep : ∃ lo hi, Utf8State.step .ready (v / 4096 % 16 + 224) =
        some (.inside 1 lo hi (v / 4096), none) ∧
          lo ≤ v / 64 % 64 + 128 ∧ v / 64 % 64 + 128 ≤ hi := by
      rw [Utf8State.step, if_neg (by omega), if_neg (by omega), if_neg (by omega)]
      have hdigit : v / 4096 % 16 + 224 - 0xE0 = v / 4096 := by omega
      split_ifs with h₄ h₅
      · exact ⟨0xA0, 0xBF, by rw [show v / 4096 = 0 by omega], by omega⟩
      · exact ⟨0x80, 0x9F, by rw [show v / 4096 = 0xD by omega], by omega⟩
      · exact ⟨0x80, 0xBF, by rw [hdigit], by omega⟩
      all_goals omega
    obtain ⟨lo, hi, hstep, hbounds⟩ := hstep
    have hsum : (v / 4096 * 64 + (v / 64 % 64 + 128 - 0x80)) * 64 + (v % 64 + 128 - 0x80) = v := by
      omega
    refine decodeFrom_first (by omega) hstep (decodeFrom_inside hbounds (by omega) ?_)
    rw [decodeFrom_last (by omega) (by omega), hsum]
  · have hstep : ∃ lo hi, Utf8State.step .ready (v / 262144 % 8 + 240) =
        some (.inside 2 lo hi (v / 262144), none) ∧
          lo ≤ v / 4096 % 64 + 128 ∧ v / 4096 % 64 + 128 ≤ hi := by
      rw [Utf8State.step, if_neg (by omega), if_neg (by omega), if_neg (by omega),
        if_neg (by omega), if_neg (by omega), if_neg (by omega)]
      have hdigit : v / 262144 % 8 + 240 - 0xF0 = v / 262144 := by omega
      split_ifs with h₄ h₅ h₆
      · exact ⟨0x90, 0xBF, by rw [show v / 262144 = 0 by omega], by omega⟩
      · exact ⟨0x80, 0xBF, by rw [hdigit], by omega⟩
      · exact ⟨0x80, 0x8F, by rw [show v / 262144 = 4 by omega], by omega⟩
      all_goals omega
    obtain ⟨lo, hi, hstep, hbounds⟩ := hstep
    have hsum : ((v / 262144 * 64 + (v / 4096 % 64 + 128 - 0x80)) * 64 +
        (v / 64 % 64 + 128 - 0x80)) * 64 + (v % 64 + 128 - 0x80) = v := by omega
    refine decodeFrom_first (by omega) hstep (decodeFrom_inside hbounds (by omega)
      (decodeFrom_inside (by omega) (by omega) ?_))
    rw [decodeFrom_last (by omega) (by omega), hsum]

theorem toList_loop (data : ByteArray) (i : Nat) (seen : List UInt8) :
    ByteArray.toList.loop data i seen = seen.reverse ++ data.data.toList.drop i := by
  fun_induction ByteArray.toList.loop data i seen with
  | case1 i seen hi ih =>
    have hbound : i < data.data.toList.length := by simpa using hi
    rw [ih, List.drop_eq_getElem_cons hbound, List.reverse_cons, List.append_assoc,
      List.singleton_append]
    congr 2
    exact getElem!_pos data.data i hi
  | case2 i seen hi =>
    rw [List.drop_eq_nil_of_le (by simpa using Nat.le_of_not_lt hi), List.append_nil]

theorem encodeUtf8_eq (s : String) : encodeUtf8 s = s.toList.flatMap String.utf8EncodeChar := by
  have hdata : s.toUTF8 = (s.toList.flatMap String.utf8EncodeChar).toByteArray :=
    String.utf8Encode_toList.symm
  rw [encodeUtf8, ByteArray.toList, toList_loop, hdata, List.toList_data_toByteArray]
  rfl

theorem decodeFrom_encodeUtf8 (s : String) :
    decodeFrom .ready (encodeUtf8 s) = some (s.toList, .ready) := by
  rw [encodeUtf8_eq]
  induction s.toList with
  | nil => rfl
  | cons c rest ih =>
    rw [List.flatMap_cons, decodeFrom_append_iff]
    exact ⟨[c], .ready, rest, decodeFrom_encodeChar c, ih, rfl⟩

theorem decodeUtf8_encodeUtf8 (s : String) : decodeUtf8 (encodeUtf8 s) = some s := by
  rw [decodeUtf8, decodeFrom_encodeUtf8]
  exact congrArg some String.ofList_toList

/-! Line ends. -/

theorem unixLines_cons {c : Char} (cs : List Char) (h : c ≠ '\r') :
    unixLines (c :: cs) = c :: unixLines cs := by
  rw [unixLines.eq_def]
  split <;> simp_all

theorem unixLines_return {cs : List Char} (h : cs.head? ≠ some '\n') :
    unixLines ('\r' :: cs) = '\n' :: unixLines cs := by
  cases cs with
  | nil => rfl
  | cons d rest => exact unixLines.eq_3 _ (by simpa using h)

/-- Two parts of a text whose line ends are not cut apart. -/
def Parted (a b : List Char) : Prop := a.getLast? = some '\r' → b.head? ≠ some '\n'

theorem Parted.tail {c : Char} {a b : List Char} (h : Parted (c :: a) b) : Parted a b := by
  cases a with
  | nil => exact nofun
  | cons d rest => rwa [Parted, List.getLast?_cons_cons] at h

theorem unixLines_append {a b : List Char} (h : Parted a b) :
    unixLines (a ++ b) = unixLines a ++ unixLines b := by
  fun_induction unixLines a with
  | case1 => rfl
  | case2 rest ih => simp only [List.cons_append, unixLines, ih h.tail.tail]
  | case3 rest hnext ih =>
    have hhead : (rest ++ b).head? ≠ some '\n' := by
      cases rest with
      | nil => exact h rfl
      | cons d rest => simpa using hnext rest
    rw [List.cons_append, unixLines_return hhead, ih h.tail]
    rfl
  | case4 c rest _ hc ih =>
    rw [List.cons_append, unixLines_cons _ hc, ih h.tail]
    rfl

theorem unixLines_of_no_return {cs : List Char} (h : '\r' ∉ cs) : unixLines cs = cs := by
  induction cs with
  | nil => rfl
  | cons c rest ih =>
    obtain ⟨hc, hrest⟩ := List.ne_and_not_mem_of_not_mem_cons h
    rw [unixLines_cons rest hc.symm, ih hrest]

theorem no_return_unixLines (cs : List Char) : '\r' ∉ unixLines cs := by
  fun_induction unixLines cs with
  | case1 => exact List.not_mem_nil
  | case2 rest ih => simp [ih]
  | case3 rest hrest ih => simp [ih]
  | case4 c rest _ hc ih =>
    rw [List.mem_cons, not_or]
    exact ⟨fun hr => hc hr.symm, ih⟩

@[simp] theorem unixLines_unixLines (cs : List Char) : unixLines (unixLines cs) = unixLines cs :=
  unixLines_of_no_return (no_return_unixLines cs)

end ModelContracts.Text

namespace ModelContracts

open Text

theorem fileText_encodeUtf8 (s : String) :
    fileText (encodeUtf8 s) = some (String.ofList (unixLines s.toList)) := by
  rw [fileText, decodeUtf8_encodeUtf8]
  rfl

namespace LineReader

/-- What is held back stands before the text to come. -/
def pending (held : Bool) (cs : List Char) : List Char := if held then '\r' :: cs else cs

theorem holdBack_append (cs after : List Char) :
    unixLines (holdBack cs).1 ++ unixLines (pending (holdBack cs).2 after) =
      unixLines (cs ++ after) := by
  unfold holdBack
  split_ifs with hlast
  · have hcs : cs = cs.dropLast ++ ['\r'] :=
      (List.dropLast_append_getLast? '\r' hlast).symm
    rw [pending, if_pos rfl, ← unixLines_append (fun _ => by simp)]
    conv => rhs; rw [hcs, List.append_assoc]
    rfl
  · rw [pending, if_neg Bool.false_ne_true, unixLines_append fun hr => (hlast hr).elim]

theorem feed_end {r : LineReader} (h : r.state = .ready) :
    r.feed [] true = some (unixLines (pending r.held []), {}) := by
  simp only [feed, decodeFrom, h, if_true, pending]

/-- A portion gives its text but for what is held back. -/
theorem feed_part {r : LineReader} {part : List UInt8} {before : List Char} {st : Utf8State}
    (h : decodeFrom r.state part = some (before, st)) :
    ∃ more r', r.feed part false = some (more, r') ∧ r'.state = st ∧
      ∀ after, more ++ unixLines (pending r'.held after) =
        unixLines (pending r.held (before ++ after)) := by
  simp only [feed, h, Bool.false_eq_true, if_false]
  split_ifs with hempty hheld
  · obtain rfl := List.isEmpty_iff.1 hempty
    exact ⟨[], _, rfl, rfl, fun after => rfl⟩
  · refine ⟨_, _, rfl, rfl, fun after => ?_⟩
    rw [holdBack_append, pending, if_pos hheld]
    rfl
  · refine ⟨_, _, rfl, rfl, fun after => ?_⟩
    rw [holdBack_append, pending, if_neg hheld]

end LineReader

open LineReader

/-- The start of a file is the start of its text, in whatever portions it is read. -/
theorem headFrom_eq {limit portion fuel : Nat} {r : LineReader} {cs text : List Char}
    {data : List UInt8} (hportion : 0 < portion) (hfuel : data.length < fuel)
    (h : decodeFrom r.state data = some (text, .ready)) :
    headFrom limit portion fuel r cs data =
      some ((cs ++ unixLines (pending r.held text)).take limit) := by
  induction fuel generalizing r cs data text with
  | zero => omega
  | succ fuel ih =>
    rw [headFrom]
    by_cases hlimit : limit ≤ cs.length
    · rw [if_pos hlimit, List.take_append_of_le_length hlimit]
    rw [if_neg hlimit]
    cases data with
    | nil =>
      simp only [decodeFrom, Option.some.injEq, Prod.mk.injEq] at h
      obtain ⟨rfl, hready⟩ := h
      rw [List.take_nil, List.isEmpty_nil, feed_end hready]
      rfl
    | cons b rest =>
      rw [← List.take_append_drop portion (b :: rest), decodeFrom_append_iff] at h
      obtain ⟨before, st, after, hbefore, hafter, rfl⟩ := h
      obtain ⟨more, r', hfeed, hstate, hmore⟩ := feed_part hbefore
      have hshorter : ((b :: rest).drop portion).length < fuel := by
        rw [List.length_drop, List.length_cons] at *
        omega
      rw [← hstate] at hafter
      rw [List.isEmpty_cons, hfeed]
      dsimp only
      rw [if_neg Bool.false_ne_true, ih hshorter hafter, List.append_assoc, hmore]

theorem fileHead_encodeUtf8 {limit portion : Nat} (hportion : 0 < portion) (s : String) :
    fileHead limit portion (encodeUtf8 s) = some ((unixLines s.toList).take limit) :=
  headFrom_eq hportion (Nat.lt_succ_self _) (decodeFrom_encodeUtf8 s)

/-- What follows the first portion does not matter to a head that lies in it. -/
theorem fileHead_start (rest : List UInt8) {limit : Nat} {start : List UInt8} {text : List Char} {st : Utf8State}
    (h : decodeFrom .ready start = some (text, st)) (hreturn : '\r' ∉ text) (hlimit : 0 < limit)
    (hlength : limit ≤ text.length) :
    fileHead limit start.length (start ++ rest) = some (text.take limit) := by
  have htext : text ≠ [] := by
    rintro rfl
    exact absurd hlength (Nat.not_le.2 hlimit)
  have hstart : start ≠ [] := by
    rintro rfl
    cases h
    exact htext rfl
  obtain ⟨b, bs, rfl⟩ := List.exists_cons_of_ne_nil hstart
  have hheld : LineReader.holdBack text = (text, false) := by
    refine if_neg fun hlast => hreturn ?_
    exact List.mem_of_getLast? hlast
  have hfeed : ({} : LineReader).feed (b :: bs) false = some (text, ⟨st, false⟩) := by
    simp only [LineReader.feed, h, Bool.false_eq_true, if_false, hheld,
      unixLines_of_no_return hreturn]
    simp [htext]
  have htake : ((b :: bs) ++ rest).take (b :: bs).length = b :: bs := List.take_left
  have hmore : ¬ limit ≤ ([] : List Char).length := Nat.not_le.2 hlimit
  unfold fileHead headFrom
  rw [if_neg hmore, htake]
  simp only [List.cons_append, List.isEmpty_cons, hfeed]
  simp only [List.nil_append, List.length_cons, List.drop_succ_cons, Bool.false_eq_true, if_false]
  unfold headFrom
  rw [if_pos hlength]

end ModelContracts
