import ModelContracts.Document.Meaning
import ModelContracts.Proofs.Running
import ModelContracts.Proofs.TypeExpr.Mapping

/-!
The mappings in a document, at any depth. No key stands twice in one of them, and a key that counts as a
text is a text.
-/

namespace ModelContracts

namespace Value

variable {v : Value}

/-- A value that counts as a text only when it is one. -/
def Unmixed (v : Value) : Prop := ∀ s, v.text? = some s → v = .text s

/-- A key as it can stand in a document. -/
def Simple (v : Value) : Prop := v.IsKey ∧ v.Unmixed

theorem comparable_simple : Comparable Simple where
  refl a ha := comparable_isKey.refl a ha.1
  symm a b ha hb := comparable_isKey.symm a b ha.1 hb.1
  trans a b c ha hb hc := comparable_isKey.trans a b c ha.1 hb.1 hc.1

theorem unmixed_text (s : String) : (text s).Unmixed := by
  intro t ht
  rw [text?] at ht
  rw [Option.some.inj ht]

theorem simple_text (s : String) : (text s).Simple := ⟨⟨rfl, rfl⟩, unmixed_text s⟩

/-- What is no text and has no text in it is a key as long as it has a core. -/
theorem simple_of_no_text (hkey : v.IsKey) (h : v.text? = Option.none) : v.Simple := by
  refine ⟨hkey, fun s hs => ?_⟩
  rw [h] at hs
  cases hs

theorem core?_of_standsAlone (h : v.standsAlone = true) : v.core?.isSome = true := by
  rw [core?]
  split
  · rfl
  · split
    · rfl
    · rw [if_pos h]
      rfl

end Value

namespace Document

theorem except_map_ok {α β : Type} {x : Except Fault α} {f : α → β} {b : β}
    (h : f <$> x = .ok b) : ∃ a, x = .ok a ∧ f a = b := by
  cases x with
  | error e => cases h
  | ok a => exact ⟨a, rfl, Except.ok.inj h⟩

/-! Scalars. -/

theorem dateOf_simple {text : String} {v : Value} (h : dateOf text = .ok v) :
    v.Simple ∧ v.isDict = false := by
  obtain ⟨d, -, h⟩ := except_bind_ok h
  split at h
  · split at h
    · cases h
      exact ⟨Value.simple_of_no_text ⟨rfl, rfl⟩ rfl, rfl⟩
    · cases h
  · obtain ⟨c, -, h⟩ := except_bind_ok h
    split at h
    · cases h
      exact ⟨Value.simple_of_no_text ⟨rfl, rfl⟩ rfl, rfl⟩
    · cases h

theorem scalarValue_simple {tag : Tag} {text : String} {v : Value}
    (h : scalarValue tag text = .ok v) : v.Simple ∧ v.isDict = false := by
  rw [scalarValue] at h
  split at h
  · cases h
    exact ⟨Value.simple_text text, rfl⟩
  · cases h
    exact ⟨Value.simple_of_no_text ⟨rfl, rfl⟩ rfl, rfl⟩
  · obtain ⟨b, -, rfl⟩ := except_map_ok h
    exact ⟨Value.simple_of_no_text ⟨rfl, rfl⟩ rfl, rfl⟩
  · obtain ⟨n, -, rfl⟩ := except_map_ok h
    exact ⟨Value.simple_of_no_text ⟨rfl, rfl⟩ rfl, rfl⟩
  · obtain ⟨x, -, rfl⟩ := except_map_ok h
    exact ⟨Value.simple_of_no_text ⟨Value.core?_of_standsAlone rfl, rfl⟩ rfl, rfl⟩
  · exact dateOf_simple h
  · split at h
    · obtain ⟨data, -, rfl⟩ := except_map_ok h
      exact ⟨Value.simple_of_no_text ⟨rfl, rfl⟩ rfl, rfl⟩
    · cases h
  · cases h

/-! Collections. -/

/-- A value that can be looked up is a scalar. -/
theorem meaning_simple {n : Node} {v : Value} (h : n.meaning = .ok v) (hhashable : v.hashable = true) :
    v.Simple := by
  cases n with
  | scalar t text =>
    rw [Node.meaning] at h
    exact (scalarValue_simple h).1
  | sequence t items =>
    rw [Node.meaning] at h
    obtain ⟨vs, -, h⟩ := except_bind_ok h
    split at h
    · cases h
      cases hhashable
    · split at h
      · obtain ⟨pairs, -, h⟩ := except_bind_ok h
        cases h
        cases hhashable
      · cases h
  | mapping t entries =>
    rw [Node.meaning] at h
    split at h
    · obtain ⟨es, -, h⟩ := except_bind_ok h
      obtain ⟨ds, -, h⟩ := except_bind_ok h
      cases h
      cases hhashable
    · split at h
      · obtain ⟨es, -, h⟩ := except_bind_ok h
        obtain ⟨ds, -, h⟩ := except_bind_ok h
        cases h
        cases hhashable
      · obtain ⟨text, -, h⟩ := except_bind_ok h
        exact (scalarValue_simple h).1

theorem entryMeaning_key {e : Node × Node} {d : Value × Value} (h : entryMeaning e = .ok d)
    (hhashable : d.1.hashable = true) : d.1.Simple := by
  obtain ⟨k, n⟩ := e
  rw [entryMeaning] at h
  split at h
  · obtain ⟨key, hkey, h⟩ := except_bind_ok h
    obtain ⟨v, -, h⟩ := except_bind_ok h
    obtain ⟨text, -, rfl⟩ := except_map_ok hkey
    cases h
    exact Value.simple_text text
  · obtain ⟨key, hkey, h⟩ := except_bind_ok h
    obtain ⟨v, -, h⟩ := except_bind_ok h
    cases h
    exact meaning_simple hkey hhashable

theorem entryMeanings_keys {l : List (Node × Node)} {es : Entries} (h : entryMeanings l = .ok es) :
    ∀ e ∈ es, e.1.hashable = true → e.1.Simple := by
  induction l generalizing es with
  | nil =>
    rw [entryMeanings] at h
    cases h
    simp
  | cons e l ih =>
    rw [entryMeanings] at h
    obtain ⟨d, hd, h⟩ := except_bind_ok h
    obtain ⟨ds, hds, h⟩ := except_bind_ok h
    cases h
    exact List.forall_mem_cons.2 ⟨entryMeaning_key hd, ih hds⟩

theorem foldl_set_nested {K : Value → Prop} {es done : Entries}
    (hes : ∀ e ∈ es, K e.1 ∧ e.2.Nested K) (hdone : (Value.dict done).Nested K) :
    (Value.dict (es.foldl (fun (d : Entries) e => d.set e.1 e.2) done)).Nested K := by
  induction es generalizing done with
  | nil => exact hdone
  | cons e es ih =>
    obtain ⟨he, hrest⟩ := List.forall_mem_cons.1 hes
    exact ih hrest (hdone.set he.1 he.2)

theorem dictOf_nested {es ds : Entries} (h : dictOf es = .ok ds)
    (hkeys : ∀ e ∈ es, e.1.hashable = true → e.1.Simple) (hvalues : ∀ e ∈ es, e.2.Nested Value.Simple) :
    (Value.dict ds).Nested Value.Simple := by
  rw [dictOf] at h
  split at h
  next hall =>
    cases h
    refine foldl_set_nested (fun e he => ⟨?_, hvalues e he⟩) .nil
    exact hkeys e he (List.all_eq_true.1 hall e he)
  · cases h

mutual

theorem meaning_nested : ∀ (n : Node) {v : Value}, n.meaning = .ok v → v.Nested Value.Simple
  | .scalar t text, v, h => by
    rw [Node.meaning] at h
    exact .plain (scalarValue_simple h).2
  | .sequence t items, v, h => by
    rw [Node.meaning] at h
    obtain ⟨vs, -, h⟩ := except_bind_ok h
    split at h
    · cases h
      exact .plain rfl
    · split at h
      · obtain ⟨pairs, -, h⟩ := except_bind_ok h
        cases h
        exact .plain rfl
      · cases h
  | .mapping t entries, v, h => by
    rw [Node.meaning] at h
    split at h
    · obtain ⟨es, hes, h⟩ := except_bind_ok h
      obtain ⟨ds, hds, h⟩ := except_bind_ok h
      cases h
      exact dictOf_nested hds (entryMeanings_keys hes) (entryMeanings_nested entries hes)
    · split at h
      · obtain ⟨es, -, h⟩ := except_bind_ok h
        obtain ⟨ds, -, h⟩ := except_bind_ok h
        cases h
        exact .plain rfl
      · obtain ⟨text, -, h⟩ := except_bind_ok h
        exact .plain (scalarValue_simple h).2
termination_by structural n => n

theorem entryMeanings_nested : ∀ (l : List (Node × Node)) {es : Entries}, entryMeanings l = .ok es →
    ∀ e ∈ es, e.2.Nested Value.Simple
  | [], es, h => by
    rw [entryMeanings] at h
    cases h
    simp
  | e :: rest, es, h => by
    rw [entryMeanings] at h
    obtain ⟨d, hd, h⟩ := except_bind_ok h
    obtain ⟨ds, hds, h⟩ := except_bind_ok h
    cases h
    exact List.forall_mem_cons.2 ⟨entryMeaning_nested e hd, entryMeanings_nested rest hds⟩
termination_by structural l => l

theorem entryMeaning_nested : ∀ (e : Node × Node) {d : Value × Value}, entryMeaning e = .ok d →
    d.2.Nested Value.Simple
  | (k, n), d, h => by
    rw [entryMeaning] at h
    split at h
    all_goals
      obtain ⟨key, -, h⟩ := except_bind_ok h
      obtain ⟨v, hv, h⟩ := except_bind_ok h
      cases h
      exact meaning_nested n hv
termination_by structural e => e

end

/-- In a document no key stands twice in a mapping. -/
theorem read_nested {text : String} {v : Value} (h : read text = .ok v) : v.Nested Value.Simple := by
  rw [read] at h
  obtain ⟨n, -, h⟩ := except_bind_ok h
  split at h
  · obtain ⟨m, -, h⟩ := except_bind_ok h
    exact meaning_nested m h
  · cases h
    exact .plain rfl

end Document

end ModelContracts
