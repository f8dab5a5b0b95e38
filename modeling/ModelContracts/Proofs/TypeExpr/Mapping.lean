import ModelContracts.Proofs.TypeExpr.Keys

/-!
Mappings by their entries: what is found at a key once another one is set, and mappings whose values are
mappings again, each with keys of one kind and no key twice.
-/

namespace ModelContracts

namespace Entries

variable {K P Q : Value → Prop} {es : Entries} {key k v : Value}

theorem forall_set (hes : ∀ e ∈ es, P e.1 ∧ Q e.2) (hkey : P key) (hv : Q v) :
    ∀ e ∈ es.set key v, P e.1 ∧ Q e.2 := by
  induction es with
  | nil =>
    intro e he
    rw [List.mem_singleton.1 he]
    exact ⟨hkey, hv⟩
  | cons d es ih =>
    obtain ⟨hd, hrest⟩ := List.forall_mem_cons.1 hes
    rw [set]
    split
    · exact List.forall_mem_cons.2 ⟨⟨hd.1, hv⟩, hrest⟩
    · exact List.forall_mem_cons.2 ⟨hd, ih hrest⟩

theorem forall_keys_set (hes : ∀ e ∈ es, P e.1) (hkey : P key) : ∀ e ∈ es.set key v, P e.1 := by
  intro e he
  exact (forall_set (Q := fun _ => True) (fun e he => ⟨hes e he, trivial⟩) hkey trivial e he).1

theorem mem_of_find? (h : es.find? k = some v) : ∃ e ∈ es, e.1.sameKey k = true ∧ e.2 = v := by
  induction es with
  | nil => cases h
  | cons e es ih =>
    rw [find?] at h
    split at h
    next hk => exact ⟨e, List.mem_cons_self, hk, Option.some.inj h⟩
    next =>
      obtain ⟨d, hd, hdk, hdv⟩ := ih h
      exact ⟨d, List.mem_cons_of_mem e hd, hdk, hdv⟩

theorem find?_eq_none (h : ∀ e ∈ es, e.1.sameKey k = false) : es.find? k = none := by
  induction es with
  | nil => rfl
  | cons e es ih =>
    rw [find?, if_neg (by simp [h e List.mem_cons_self])]
    exact ih fun d hd => h d (List.mem_cons_of_mem e hd)

theorem set_of_find? (h : es.find? k = some v) : es.set k v = es := by
  induction es with
  | nil => cases h
  | cons e es ih =>
    rw [find?] at h
    rw [set]
    split
    next hk =>
      rw [if_pos hk] at h
      rw [← Option.some.inj h]
    next hk =>
      rw [if_neg hk] at h
      rw [ih h]

theorem set_of_find?_none (h : es.find? k = none) (v : Value) : es.set k v = es ++ [(k, v)] := by
  induction es with
  | nil => rfl
  | cons e es ih =>
    rw [find?] at h
    rw [set]
    split at h
    · cases h
    next hk => rw [if_neg hk, ih h, List.cons_append]

theorem find?_append_single (key : Value) :
    (es ++ [(key, v)]).find? k = (es.find? k).or (if key.sameKey k then some v else none) := by
  induction es with
  | nil => rfl
  | cons e es ih =>
    rw [List.cons_append, find?, find?, ih]
    split <;> rfl

/-- Keys of one kind, and no key twice. -/
structure Keyed (K : Value → Prop) (es : Entries) : Prop where
  keys : ∀ e ∈ es, K e.1
  distinct : es.Pairwise fun d e => d.1.sameKey e.1 = false

theorem Keyed.nil : Keyed K [] := ⟨by simp, .nil⟩

theorem Keyed.cons {e : Value × Value} (he : K e.1) (hnew : ∀ d ∈ es, e.1.sameKey d.1 = false)
    (h : es.Keyed K) : Keyed K (e :: es) :=
  ⟨List.forall_mem_cons.2 ⟨he, h.keys⟩, List.pairwise_cons.2 ⟨hnew, h.distinct⟩⟩

theorem Keyed.of_cons {e : Value × Value} (h : Keyed K (e :: es)) :
    K e.1 ∧ (∀ d ∈ es, e.1.sameKey d.1 = false) ∧ es.Keyed K := by
  obtain ⟨hnew, hdistinct⟩ := List.pairwise_cons.1 h.distinct
  obtain ⟨he, hkeys⟩ := List.forall_mem_cons.1 h.keys
  exact ⟨he, hnew, hkeys, hdistinct⟩

theorem Keyed.set (h : es.Keyed K) (hkey : K key) (v : Value) : (es.set key v).Keyed K := by
  induction es with
  | nil => exact .cons hkey (by simp) .nil
  | cons e es ih =>
    obtain ⟨he, hnew, hes⟩ := h.of_cons
    rw [Entries.set]
    split
    · exact .cons he hnew hes
    next hother =>
      have hkey' : e.1.sameKey key = false := Bool.eq_false_iff.2 hother
      exact .cons he (forall_keys_set (P := fun a => e.1.sameKey a = false) hnew hkey') (ih hes)

end Entries

section

variable {K : Value → Prop} (hK : Comparable K)

include hK

theorem Comparable.sameKey_congr {a b c : Value} (ha : K a) (hb : K b) (hc : K c)
    (h : a.sameKey b = true) : c.sameKey a = c.sameKey b := by
  rw [Bool.eq_iff_iff]
  constructor
  · intro hca
    exact hK.trans c a b hc ha hb hca h
  · intro hcb
    exact hK.trans c b a hc hb ha hcb (hK.symm a b ha hb h)

namespace Entries

theorem find?_congr {es : Entries} (hes : ∀ e ∈ es, K e.1) {a b : Value} (ha : K a) (hb : K b)
    (h : a.sameKey b = true) : es.find? a = es.find? b := by
  induction es with
  | nil => rfl
  | cons e es ih =>
    obtain ⟨k, v⟩ := e
    obtain ⟨hk, hrest⟩ := List.forall_mem_cons.1 hes
    have hsame : k.sameKey a = k.sameKey b := hK.sameKey_congr ha hb hk h
    simp only [find?, hsame, ih hrest]

theorem find?_set {es : Entries} (hes : ∀ e ∈ es, K e.1) {key k : Value} (hkey : K key) (hk : K k)
    (v : Value) : (es.set key v).find? k = if key.sameKey k then some v else es.find? k := by
  induction es with
  | nil => rfl
  | cons e es ih =>
    obtain ⟨a, b⟩ := e
    obtain ⟨ha, hrest⟩ := List.forall_mem_cons.1 hes
    by_cases hakey : a.sameKey key = true
    · have hsame : key.sameKey k = a.sameKey k := by
        rw [Bool.eq_iff_iff]
        constructor
        · exact hK.trans a key k ha hkey hk hakey
        · exact hK.trans key a k hkey ha hk (hK.symm a key ha hkey hakey)
      simp only [set, hakey, if_true, find?, hsame]
      split <;> rfl
    · simp only [set, hakey, if_false, find?, ih hrest, Bool.false_eq_true]
      by_cases hak : a.sameKey k = true
      · have hnot : key.sameKey k = false := Bool.eq_false_iff.2 fun hkeyk =>
          hakey (hK.trans a k key ha hk hkey hak (hK.symm key k hkey hk hkeyk))
        simp [hak, hnot]
      · simp [hak]

theorem Keyed.find?_of_mem {es : Entries} (h : es.Keyed K) : ∀ e ∈ es, es.find? e.1 = some e.2 := by
  induction es with
  | nil => simp
  | cons d es ih =>
    obtain ⟨hd, hnew, hes⟩ := h.of_cons
    intro e he
    rcases List.mem_cons.1 he with rfl | he
    · rw [Entries.find?, if_pos (hK.refl e.1 hd)]
    · rw [Entries.find?, if_neg (by simp [hnew e he])]
      exact ih hes e he

end Entries

end

/-! Mappings in mappings. -/

namespace Value

variable {K : Value → Prop} {es : Entries} {k v : Value}

def isDict : Value → Bool
  | .dict _ => true
  | _ => false

theorem dict_of_isDict (h : v.isDict = true) : ∃ es, v = .dict es := by
  cases v with
  | dict es => exact ⟨es, rfl⟩
  | _ => cases h

/-- Every mapping in a mapping, itself among them, has such keys and each of them once. -/
inductive Nested (K : Value → Prop) : Value → Prop
  | plain {v : Value} (h : v.isDict = false) : Nested K v
  | dict {es : Entries} (keyed : es.Keyed K) (values : ∀ e ∈ es, Nested K e.2) : Nested K (.dict es)

theorem Nested.keyed (h : (Value.dict es).Nested K) : es.Keyed K := by
  cases h with
  | plain h => cases h
  | dict keyed => exact keyed

theorem Nested.values (h : (Value.dict es).Nested K) : ∀ e ∈ es, e.2.Nested K := by
  cases h with
  | plain h => cases h
  | dict _ values => exact values

theorem Nested.nil : (Value.dict []).Nested K := .dict .nil (by simp)

theorem Nested.cons {e : Value × Value} (he : K e.1) (hv : e.2.Nested K)
    (hnew : ∀ d ∈ es, e.1.sameKey d.1 = false) (hes : (Value.dict es).Nested K) :
    (Value.dict (e :: es)).Nested K :=
  .dict (.cons he hnew hes.keyed) (List.forall_mem_cons.2 ⟨hv, hes.values⟩)

theorem Nested.set {key : Value} (h : (Value.dict es).Nested K) (hkey : K key) (hv : v.Nested K) :
    (Value.dict (es.set key v)).Nested K := by
  have hentries := Entries.forall_set (fun e he => ⟨h.keyed.keys e he, h.values e he⟩) hkey hv
  exact .dict (h.keyed.set hkey v) fun e he => (hentries e he).2

theorem Nested.of_find? (h : (Value.dict es).Nested K) (hv : Entries.find? k es = some v) :
    v.Nested K := by
  obtain ⟨e, he, -, rfl⟩ := Entries.mem_of_find? hv
  exact h.values e he

end Value

end ModelContracts
