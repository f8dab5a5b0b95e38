import ModelContracts.Config.Merge
import ModelContracts.Proofs.TypeExpr.Mapping

/-!
What stands where in a merged mapping. A path is a list of keys. At a path that the second mapping leaves
open, which has a value neither there nor in the way, the merged mapping holds what the first one holds;
where both hold mappings it holds the merged one, with the keys of the first before the new ones; and
everywhere else it holds what the second mapping holds.
-/

namespace ModelContracts

namespace Value

/-- The value at the end of a path. -/
def at? : Value → List Value → Option Value
  | v, [] => some v
  | .dict es, k :: p => (Entries.find? k es).bind fun v => v.at? p
  | _, _ :: _ => Option.none

/-- There is no value at the path, and only mappings on the way to it. -/
def LeavesOpen (v : Value) (p : List Value) : Prop :=
  v.at? p = Option.none ∧ ∀ q, q <+: p → q ≠ p → ∀ u, v.at? q = some u → u.isDict = true

end Value

/-! Merging, key by key. -/

section

variable {K : Value → Prop} {base upper : Entries} {k v : Value}

theorem mergeValue_none (v : Value) : mergeValue v none = v := by
  cases v <;> simp [mergeValue]

theorem mergeValue_dict (base upper : Entries) :
    mergeValue (.dict upper) (some (.dict base)) = .dict (mergeEntries base upper) := by
  simp [mergeValue]

theorem mergeValue_plain {u : Value} (h : v.isDict = false ∨ u.isDict = false) :
    mergeValue v (some u) = v := by
  cases v with
  | dict entries => cases u <;> simp_all [mergeValue, Value.isDict]
  | _ => simp [mergeValue]

theorem mergeEntries_cons (base upper : Entries) (k v : Value) :
    mergeEntries base ((k, v) :: upper) =
      mergeEntries (base.set k (mergeValue v (base.find? k))) upper := by
  rw [mergeEntries, mergeEntry]

/-- What is found in a merged mapping. -/
theorem find?_mergeEntries (hK : Comparable K) (hbase : base.Keyed K) (hupper : upper.Keyed K)
    (hk : K k) :
    (mergeEntries base upper).find? k =
      ((upper.find? k).map fun v => mergeValue v (base.find? k)).or (base.find? k) := by
  induction upper generalizing base with
  | nil =>
    rw [mergeEntries_nil]
    rfl
  | cons e upper ih =>
    obtain ⟨a, b⟩ := e
    obtain ⟨ha, hnew, hrest⟩ := hupper.of_cons
    rw [mergeEntries_cons, ih (hbase.set ha _) hrest, Entries.find?_set hK hbase.keys ha hk,
      Entries.find?]
    by_cases hak : a.sameKey k = true
    · have hnone : Entries.find? k upper = none := by
        rw [← Entries.find?_congr hK hrest.keys ha hk hak]
        refine Entries.find?_eq_none fun e he => Bool.eq_false_iff.2 fun hea => ?_
        have hae := hK.symm e.1 a (hrest.keys e he) ha hea
        rw [hnew e he] at hae
        cases hae
      simp [hak, hnone, Entries.find?_congr hK hbase.keys ha hk hak]
    · simp [hak]

theorem keys_mergeEntries (hK : Comparable K) (hbase : base.Keyed K) (hupper : upper.Keyed K) :
    (mergeEntries base upper).keys = base.keys ++ upper.keys.filter fun k => (base.find? k).isNone := by
  induction upper generalizing base with
  | nil =>
    rw [mergeEntries_nil]
    simp [Entries.keys]
  | cons e upper ih =>
    obtain ⟨a, b⟩ := e
    obtain ⟨ha, hnew, hrest⟩ := hupper.of_cons
    have hsame : ∀ k ∈ Entries.keys upper, ∀ v,
        ((base.set a v).find? k).isNone = (base.find? k).isNone := by
      intro k hk v
      obtain ⟨e, he, rfl⟩ := List.mem_map.1 hk
      rw [Entries.find?_set hK hbase.keys ha (hrest.keys e he), hnew e he]
      rfl
    rw [mergeEntries_cons, ih (hbase.set ha _) hrest, Entries.keys_set,
      List.filter_congr fun k hk => hsame k hk _]
    cases hfound : base.find? a with
    | none => simp [Entries.keys, hfound]
    | some u => simp [Entries.keys, hfound]

theorem mergeEntries_of_new (hnew : ∀ e ∈ upper, base.find? e.1 = none) (hupper : upper.Keyed K) :
    mergeEntries base upper = base ++ upper := by
  induction upper generalizing base with
  | nil => rw [mergeEntries_nil, List.append_nil]
  | cons e upper ih =>
    obtain ⟨a, b⟩ := e
    obtain ⟨-, hfirst, hrest⟩ := hupper.of_cons
    obtain ⟨hnone, hothers⟩ := List.forall_mem_cons.1 hnew
    rw [mergeEntries_cons, hnone, mergeValue_none, Entries.set_of_find?_none hnone, ih _ hrest,
      List.append_assoc, List.singleton_append]
    intro e he
    rw [Entries.find?_append_single, hothers e he, hfirst e he]
    rfl

theorem mergeEntries_of_held {es : Entries}
    (h : ∀ e ∈ upper, es.find? e.1 = some e.2 ∧ mergeValue e.2 (some e.2) = e.2) :
    mergeEntries es upper = es := by
  induction upper with
  | nil => exact mergeEntries_nil es
  | cons e upper ih =>
    obtain ⟨a, b⟩ := e
    obtain ⟨⟨hfound, hsame⟩, hothers⟩ := List.forall_mem_cons.1 h
    rw [mergeEntries_cons, hfound, hsame, Entries.set_of_find? hfound]
    exact ih hothers

theorem mergeEntries_nested (hbase : (Value.dict base).Nested K) (hkeys : ∀ e ∈ upper, K e.1)
    (hvalues : ∀ e ∈ upper, ∀ {u : Value}, u.Nested K → (mergeValue e.2 (some u)).Nested K)
    (hnested : ∀ e ∈ upper, e.2.Nested K) : (Value.dict (mergeEntries base upper)).Nested K := by
  induction upper generalizing base with
  | nil => rwa [mergeEntries_nil]
  | cons e upper ih =>
    obtain ⟨k, v⟩ := e
    obtain ⟨hk, hkeys⟩ := List.forall_mem_cons.1 hkeys
    obtain ⟨hv, hvalues⟩ := List.forall_mem_cons.1 hvalues
    obtain ⟨hplain, hnested⟩ := List.forall_mem_cons.1 hnested
    rw [mergeEntries_cons]
    refine ih (hbase.set hk ?_) hkeys hvalues hnested
    cases hfound : base.find? k with
    | none =>
      rw [mergeValue_none]
      exact hplain
    | some u => exact hv (hbase.of_find? hfound)

/-- What comes out of a merger can be merged again. -/
theorem mergeValue_nested {u : Value} (hv : v.Nested K) (hu : u.Nested K) :
    (mergeValue v (some u)).Nested K := by
  induction hv generalizing u with
  | plain h =>
    rw [mergeValue_plain (Or.inl h)]
    exact .plain h
  | dict keyed values ih =>
    cases hu with
    | plain h =>
      rw [mergeValue_plain (Or.inr h)]
      exact .dict keyed values
    | dict ukeyed uvalues =>
      rw [mergeValue_dict]
      exact mergeEntries_nested (.dict ukeyed uvalues) keyed.keys (fun e he => ih e he) values

/-- A value merged with itself stays as it is. -/
theorem mergeValue_self (hK : Comparable K) (h : v.Nested K) : mergeValue v (some v) = v := by
  induction h with
  | plain h => exact mergeValue_plain (Or.inl h)
  | dict keyed values ih =>
    rw [mergeValue_dict, mergeEntries_of_held fun e he => ⟨keyed.find?_of_mem hK e he, ih e he⟩]

end

/-! Along a path. -/

namespace Value

variable {K : Value → Prop} {es : Entries} {v u : Value} {k : Value} {p : List Value}

theorem at?_plain (h : v.isDict = false) (k : Value) (p : List Value) :
    v.at? (k :: p) = Option.none := by
  cases v <;> simp_all [at?, isDict]

theorem at?_dict (es : Entries) (k : Value) (p : List Value) :
    (Value.dict es).at? (k :: p) = (Entries.find? k es).bind fun v => v.at? p := by
  rw [at?]

theorem Nested.of_at? (h : v.Nested K) (hu : v.at? p = some u) : u.Nested K := by
  induction p generalizing v with
  | nil =>
    rw [at?] at hu
    exact Option.some.inj hu ▸ h
  | cons k p ih =>
    cases h with
    | plain hplain =>
      rw [at?_plain hplain] at hu
      cases hu
    | dict keyed values =>
      rw [at?_dict] at hu
      obtain ⟨w, hw, hwu⟩ := Option.bind_eq_some_iff.1 hu
      exact ih ((Nested.dict keyed values).of_find? hw) hwu

theorem not_leavesOpen_nil (v : Value) : ¬ v.LeavesOpen [] := by
  intro h
  cases h.1

theorem not_leavesOpen_plain (h : v.isDict = false) : ¬ v.LeavesOpen p := by
  intro hopen
  cases p with
  | nil => exact not_leavesOpen_nil v hopen
  | cons k p =>
    have hdict := hopen.2 [] List.nil_prefix (by simp) v rfl
    rw [h] at hdict
    cases hdict

theorem leavesOpen_dict :
    (Value.dict es).LeavesOpen (k :: p) ↔ ∀ v, Entries.find? k es = some v → v.LeavesOpen p := by
  constructor
  · intro h v hv
    refine ⟨?_, fun q hq hne u hu => h.2 (k :: q) ?_ ?_ u ?_⟩
    · have hnone := h.1
      rw [at?_dict, hv] at hnone
      exact hnone
    · exact (List.prefix_cons_inj k).2 hq
    · simpa using hne
    · rw [at?_dict, hv]
      exact hu
  · intro h
    cases hfound : Entries.find? k es with
    | none =>
      refine ⟨by rw [at?_dict, hfound]; rfl, fun q hq hne u hu => ?_⟩
      cases q with
      | nil => exact Option.some.inj hu ▸ rfl
      | cons a q =>
        obtain ⟨rfl, -⟩ := List.cons_prefix_cons.1 hq
        rw [at?_dict, hfound] at hu
        cases hu
    | some v =>
      obtain ⟨hnone, hdicts⟩ := h v hfound
      refine ⟨by rw [at?_dict, hfound]; exact hnone, fun q hq hne u hu => ?_⟩
      cases q with
      | nil => exact Option.some.inj hu ▸ rfl
      | cons a q =>
        obtain ⟨rfl, hprefix⟩ := List.cons_prefix_cons.1 hq
        rw [at?_dict, hfound] at hu
        exact hdicts q hprefix (by simpa using hne) u hu

end Value

section

variable {K : Value → Prop} {upper base : Value} {p : List Value}

theorem at?_mergeEntries (hK : Comparable K) {o b : Entries} (ho : (Value.dict o).Nested K)
    (hb : (Value.dict b).Nested K) {k : Value} (hk : K k) (p : List Value) :
    (mergeValue (.dict o) (some (.dict b))).at? (k :: p) =
      (((o.find? k).map fun v => mergeValue v (b.find? k)).or (b.find? k)).bind fun v => v.at? p := by
  rw [mergeValue_dict, Value.at?_dict, find?_mergeEntries hK hb.keyed ho.keyed hk]

/-- Where the second value leaves a path open, the first one decides. -/
theorem mergeValue_at_open (hK : Comparable K) (hupper : upper.Nested K) (hbase : base.Nested K)
    (hp : ∀ k ∈ p, K k) (hopen : upper.LeavesOpen p) :
    (mergeValue upper (some base)).at? p = base.at? p := by
  induction p generalizing upper base with
  | nil => exact absurd hopen (Value.not_leavesOpen_nil upper)
  | cons k p ih =>
    cases hupper with
    | plain hplain => exact absurd hopen (Value.not_leavesOpen_plain hplain)
    | @dict o okeyed ovalues =>
      have ho := Value.Nested.dict okeyed ovalues
      cases hbase with
      | plain hplain => rw [mergeValue_plain (Or.inr hplain), hopen.1, Value.at?_plain hplain]
      | @dict b bkeyed bvalues =>
        have hb := Value.Nested.dict bkeyed bvalues
        have hrest : ∀ a ∈ p, K a := fun a ha => hp a (List.mem_cons_of_mem k ha)
        have hinner := Value.leavesOpen_dict.1 hopen
        rw [at?_mergeEntries hK ho hb (hp k List.mem_cons_self), Value.at?_dict]
        cases hov : Entries.find? k o with
        | none => rfl
        | some v =>
          cases hbv : Entries.find? k b with
          | none => simpa [mergeValue_none] using (hinner v hov).1
          | some u => simpa using ih (ho.of_find? hov) (hb.of_find? hbv) hrest (hinner v hov)

/-- Where two mappings meet, their merger stands. -/
theorem mergeValue_at_dict (hK : Comparable K) (hupper : upper.Nested K) (hbase : base.Nested K)
    (hp : ∀ k ∈ p, K k) {o b : Entries} (ho : upper.at? p = some (.dict o))
    (hb : base.at? p = some (.dict b)) :
    (mergeValue upper (some base)).at? p = some (.dict (mergeEntries b o)) := by
  induction p generalizing upper base with
  | nil =>
    rw [Value.at?] at ho hb
    rw [Value.at?, Option.some.inj ho, Option.some.inj hb, mergeValue_dict]
  | cons k p ih =>
    cases hupper with
    | plain hplain =>
      rw [Value.at?_plain hplain] at ho
      cases ho
    | @dict oe okeyed ovalues =>
      cases hbase with
      | plain hplain =>
        rw [Value.at?_plain hplain] at hb
        cases hb
      | @dict be bkeyed bvalues =>
        have hupper := Value.Nested.dict okeyed ovalues
        have hbase := Value.Nested.dict bkeyed bvalues
        rw [Value.at?_dict] at ho hb
        obtain ⟨v, hov, ho⟩ := Option.bind_eq_some_iff.1 ho
        obtain ⟨u, hbu, hb⟩ := Option.bind_eq_some_iff.1 hb
        rw [at?_mergeEntries hK hupper hbase (hp k List.mem_cons_self), hov, hbu]
        exact ih (hupper.of_find? hov) (hbase.of_find? hbu)
          (fun a ha => hp a (List.mem_cons_of_mem k ha)) ho hb

/-- Everywhere else the second value decides. -/
theorem mergeValue_at_closed (hK : Comparable K) (hupper : upper.Nested K) (hbase : base.Nested K)
    (hp : ∀ k ∈ p, K k) (hclosed : ¬ upper.LeavesOpen p)
    (hplain : (∀ v, upper.at? p = some v → v.isDict = false) ∨
      ∀ v, base.at? p = some v → v.isDict = false) :
    (mergeValue upper (some base)).at? p = upper.at? p := by
  induction p generalizing upper base with
  | nil =>
    have hroot : upper.isDict = false ∨ base.isDict = false :=
      hplain.imp (fun h => h upper rfl) fun h => h base rfl
    rw [mergeValue_plain hroot]
  | cons k p ih =>
    cases hupper with
    | plain h => rw [mergeValue_plain (Or.inl h)]
    | @dict o okeyed ovalues =>
      cases hbase with
      | plain h => rw [mergeValue_plain (Or.inr h)]
      | @dict b bkeyed bvalues =>
        have ho := Value.Nested.dict okeyed ovalues
        have hb := Value.Nested.dict bkeyed bvalues
        rw [at?_mergeEntries hK ho hb (hp k List.mem_cons_self), Value.at?_dict]
        rw [Value.at?_dict, Value.at?_dict] at hplain
        cases hov : Entries.find? k o with
        | none =>
          refine absurd (Value.leavesOpen_dict.2 fun v hv => ?_) hclosed
          rw [hov] at hv
          cases hv
        | some v =>
          cases hbv : Entries.find? k b with
          | none => simp [mergeValue_none]
          | some u =>
            rw [hov, hbv] at hplain
            have hinner : ¬ v.LeavesOpen p := by
              intro hopen
              refine hclosed (Value.leavesOpen_dict.2 fun w hw => ?_)
              rw [hov] at hw
              exact Option.some.inj hw ▸ hopen
            exact ih (ho.of_find? hov) (hb.of_find? hbv)
              (fun a ha => hp a (List.mem_cons_of_mem k ha)) hinner hplain

end

section

variable {K : Value → Prop} {upper base v : Value} {p : List Value}

theorem Value.not_leavesOpen_of_at? (hv : upper.at? p = some v) : ¬ upper.LeavesOpen p := by
  intro hopen
  rw [hopen.1] at hv
  cases hv

theorem Value.isDict_of_at? {w : Value} (hv : upper.at? p = some v) (hplain : v.isDict = false)
    (hw : upper.at? p = some w) : w.isDict = false := by
  rw [hv] at hw
  exact Option.some.inj hw ▸ hplain

theorem mergeValue_at_upper (hK : Comparable K) (hupper : upper.Nested K) (hbase : base.Nested K)
    (hp : ∀ k ∈ p, K k) (hplain : v.isDict = false) (hv : upper.at? p = some v) :
    (mergeValue upper (some base)).at? p = some v := by
  rw [mergeValue_at_closed hK hupper hbase hp (Value.not_leavesOpen_of_at? hv)
    (Or.inl fun w hw => Value.isDict_of_at? hv hplain hw), hv]

theorem mergeValue_at_base (hK : Comparable K) (hupper : upper.Nested K) (hbase : base.Nested K)
    (hp : ∀ k ∈ p, K k) (hplain : v.isDict = false) (hv : base.at? p = some v) :
    ((mergeValue upper (some base)).at? p = some v ∧ upper.at? p ≠ some v ↔ upper.LeavesOpen p) ∧
      (¬ upper.LeavesOpen p → (mergeValue upper (some base)).at? p = upper.at? p) := by
  have hclosed : ¬ upper.LeavesOpen p → (mergeValue upper (some base)).at? p = upper.at? p :=
    fun h => mergeValue_at_closed hK hupper hbase hp h
      (Or.inr fun w hw => Value.isDict_of_at? hv hplain hw)
  refine ⟨⟨fun ⟨hmerged, hother⟩ => ?_, fun hopen => ⟨?_, ?_⟩⟩, hclosed⟩
  · by_cases hopen : upper.LeavesOpen p
    · exact hopen
    · rw [hclosed hopen] at hmerged
      exact absurd hmerged hother
  · rw [mergeValue_at_open hK hupper hbase hp hopen, hv]
  · rw [hopen.1]
    simp

theorem of_mergeValue_at (hK : Comparable K) (hupper : upper.Nested K) (hbase : base.Nested K)
    (hp : ∀ k ∈ p, K k) (hplain : v.isDict = false)
    (hv : (mergeValue upper (some base)).at? p = some v) :
    upper.at? p = some v ∨ base.at? p = some v ∧ upper.LeavesOpen p := by
  by_cases hopen : upper.LeavesOpen p
  · rw [mergeValue_at_open hK hupper hbase hp hopen] at hv
    exact Or.inr ⟨hv, hopen⟩
  · left
    cases ho : upper.at? p with
    | none => rw [← hv, mergeValue_at_closed hK hupper hbase hp hopen (by simp [ho]), ho]
    | some w =>
      cases hb : base.at? p with
      | none => rw [← hv, mergeValue_at_closed hK hupper hbase hp hopen (by simp [hb]), ho]
      | some u =>
        by_cases hboth : w.isDict = true ∧ u.isDict = true
        · obtain ⟨o, rfl⟩ := Value.dict_of_isDict hboth.1
          obtain ⟨b, rfl⟩ := Value.dict_of_isDict hboth.2
          -- Where two mappings meet there stands a mapping, and `v` is none.
          rw [mergeValue_at_dict hK hupper hbase hp ho hb] at hv
          rw [← Option.some.inj hv] at hplain
          cases hplain
        · have hone : w.isDict = false ∨ u.isDict = false := by
            cases hw : w.isDict <;> simp_all
          rw [← hv, mergeValue_at_closed hK hupper hbase hp hopen (by simpa [ho, hb] using hone), ho]

theorem keys_mergeValue_at (hK : Comparable K) (hupper : upper.Nested K) (hbase : base.Nested K)
    (hp : ∀ k ∈ p, K k) {o b : Entries} (ho : upper.at? p = some (.dict o))
    (hb : base.at? p = some (.dict b)) :
    ∃ m : Entries, (mergeValue upper (some base)).at? p = some (.dict m) ∧
      m.keys = b.keys ++ o.keys.filter fun k => (b.find? k).isNone := by
  refine ⟨mergeEntries b o, mergeValue_at_dict hK hupper hbase hp ho hb, ?_⟩
  exact keys_mergeEntries hK (hbase.of_at? hb).keyed (hupper.of_at? ho).keyed

end

section

variable {K : Value → Prop} {base upper : Entries}

/-- What stands in a merged mapping, path by path and in which order, and which mappings change
nothing. -/
theorem mergeEntries_stands (hK : Comparable K) (hbase : (Value.dict base).Nested K)
    (hupper : (Value.dict upper).Nested K) :
    (∀ p : List Value, (∀ k ∈ p, K k) →
      (∀ v : Value, v.isDict = false → (Value.dict upper).at? p = some v →
        (Value.dict (mergeEntries base upper)).at? p = some v) ∧
      (∀ v : Value, v.isDict = false → (Value.dict base).at? p = some v →
        ((Value.dict (mergeEntries base upper)).at? p = some v ∧ (Value.dict upper).at? p ≠ some v ↔
          (Value.dict upper).LeavesOpen p) ∧
        (¬ (Value.dict upper).LeavesOpen p →
          (Value.dict (mergeEntries base upper)).at? p = (Value.dict upper).at? p)) ∧
      (∀ v : Value, v.isDict = false → (Value.dict (mergeEntries base upper)).at? p = some v →
        (Value.dict upper).at? p = some v ∨
          (Value.dict base).at? p = some v ∧ (Value.dict upper).LeavesOpen p) ∧
      ∀ b o : Entries, (Value.dict base).at? p = some (.dict b) →
        (Value.dict upper).at? p = some (.dict o) →
        ∃ m : Entries, (Value.dict (mergeEntries base upper)).at? p = some (.dict m) ∧
          m.keys = b.keys ++ o.keys.filter fun k => (b.find? k).isNone) ∧
    mergeEntries base [] = base ∧ mergeEntries [] upper = upper ∧ mergeEntries base base = base := by
  rw [← mergeValue_dict]
  refine ⟨fun p hp => ⟨?_, ?_, ?_, ?_⟩, mergeEntries_nil base, ?_, ?_⟩
  · intro v hplain hv
    exact mergeValue_at_upper hK hupper hbase hp hplain hv
  · intro v hplain hv
    exact mergeValue_at_base hK hupper hbase hp hplain hv
  · intro v hplain hv
    exact of_mergeValue_at hK hupper hbase hp hplain hv
  · intro b o hb ho
    exact keys_mergeValue_at hK hupper hbase hp ho hb
  · have hnew : mergeEntries [] upper = [] ++ upper :=
      mergeEntries_of_new (fun e _ => rfl) hupper.keyed
    rwa [List.nil_append] at hnew
  · have hself := mergeValue_self hK hbase
    rw [mergeValue_dict] at hself
    exact Value.dict.inj hself

end

namespace Layered

def inner : Entries := [(.text "b", .int 3), (.text "c", .dict [])]

def below : Entries :=
  [(.int 1, .text "one"), (.float .nan, .int 2), (.text "a", .dict inner), (.text "s", .int 5)]

def innerAbove : Entries := [(.text "c", .dict [(.text "d", .int 4)]), (.text "b", .dict [])]

def above : Entries :=
  [(.text "a", .dict innerAbove), (.bool true, .text "yes"), (.text "s", .dict [(.text "t", .int 6)]),
    (.text "new", .none)]

theorem isKey_text (s : String) : (Value.text s).IsKey := ⟨rfl, rfl⟩

theorem nested_below : (Value.dict below).Nested Value.IsKey := by
  refine .cons ⟨rfl, rfl⟩ (.plain rfl) (by decide) ?_
  refine .cons ⟨rfl, rfl⟩ (.plain rfl) (by decide) ?_
  refine .cons (isKey_text _) ?_ (by decide) ?_
  · exact .cons (isKey_text _) (.plain rfl) (by decide) (.cons (isKey_text _) .nil (by simp) .nil)
  · exact .cons (isKey_text _) (.plain rfl) (by simp) .nil

theorem nested_above : (Value.dict above).Nested Value.IsKey := by
  refine .cons (isKey_text _) ?_ (by decide) ?_
  · refine .cons (isKey_text _) ?_ (by decide) (.cons (isKey_text _) .nil (by simp) .nil)
    exact .cons (isKey_text _) (.plain rfl) (by simp) .nil
  · refine .cons ⟨rfl, rfl⟩ (.plain rfl) (by decide) ?_
    refine .cons (isKey_text _) ?_ (by decide) (.cons (isKey_text _) (.plain rfl) (by simp) .nil)
    exact .cons (isKey_text _) (.plain rfl) (by simp) .nil

theorem leavesOpen_nan : (Value.dict above).LeavesOpen [.float .nan] := by
  rw [Value.leavesOpen_dict]
  intro v hv
  have hnone : Entries.find? (.float .nan) above = none := rfl
  rw [hnone] at hv
  cases hv

theorem above_stands :
    Comparable Value.IsKey ∧ (Value.dict below).Nested Value.IsKey ∧
      (Value.dict above).Nested Value.IsKey ∧
      (Value.dict (mergeEntries below above)).at? [.text "a", .text "c", .text "d"] = some (.int 4) ∧
      (Value.dict (mergeEntries below above)).at? [.int 1] = some (.text "yes") ∧
      (Value.dict (mergeEntries below above)).at? [.float .nan] = some (.int 2) ∧
      (∃ m : Entries, (Value.dict (mergeEntries below above)).at? [] = some (.dict m) ∧
        m.keys = [.int 1, .float .nan, .text "a", .text "s", .text "new"]) ∧
      mergeEntries below below = below := by
  have hstands := mergeEntries_stands Value.comparable_isKey nested_below nested_above
  have hkeys : ∀ k : Value, k.IsKey → ∀ a ∈ [k], a.IsKey := by
    intro k hk a ha
    exact List.mem_singleton.1 ha ▸ hk
  refine ⟨Value.comparable_isKey, nested_below, nested_above, ?_, ?_, ?_, ?_, hstands.2.2.2⟩
  · refine (hstands.1 [.text "a", .text "c", .text "d"] ?_).1 (.int 4) rfl rfl
    intro k hk
    simp only [List.mem_cons, List.not_mem_nil, or_false] at hk
    rcases hk with rfl | rfl | rfl <;> exact isKey_text _
  · exact (hstands.1 [.int 1] (hkeys _ ⟨rfl, rfl⟩)).1 (.text "yes") rfl rfl
  · exact (((hstands.1 [.float .nan] (hkeys _ ⟨rfl, rfl⟩)).2.1 (.int 2) rfl rfl).1.2 leavesOpen_nan).1
  · exact (hstands.1 [] (by simp)).2.2.2 below above rfl rfl

end Layered

end ModelContracts
