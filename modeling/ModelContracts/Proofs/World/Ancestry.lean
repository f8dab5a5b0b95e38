import ModelContracts.Proofs.Execution.Growth
import ModelContracts.World.Declaration

/-!
Deriving is transitive. The lineage of a declared class has the class, its bases and all that stands
in their lineages, whatever the order of the merger. A world grows out of the standard one by
declarations of new classes, so the lineage of a class has the lineages of all classes in it.
-/

namespace ModelContracts

namespace Lineage

variable {c x : ClassId} {bases l : List ClassId} {lists : List (List ClassId)}

/-- Advancing past a head leaves every other class where it stands. -/
theorem mem_advance : x ∈ (advance c lists).flatten → x ∈ lists.flatten := by
  simp only [advance, List.mem_flatten, List.mem_filter, List.mem_map]
  rintro ⟨_, ⟨⟨m, hm, rfl⟩, -⟩, hx⟩
  split at hx
  · exact ⟨m, hm, List.mem_of_mem_tail hx⟩
  · exact ⟨m, hm, hx⟩

theorem mem_or_mem_advance (h : x ∈ lists.flatten) : x = c ∨ x ∈ (advance c lists).flatten := by
  obtain ⟨m, hm, hx⟩ := List.mem_flatten.1 h
  by_cases hxc : x = c
  · exact .inl hxc
  · have hrest : x ∈ if m.head? = some c then m.tail else m := by
      split
      · next hhead =>
        obtain ⟨tail, rfl⟩ := List.head?_eq_some_iff.1 hhead
        exact (List.mem_cons.1 hx).resolve_left hxc
      · exact hx
    have hlist : (if m.head? = some c then m.tail else m) ∈ advance c lists := by
      refine List.mem_filter.2 ⟨List.mem_map_of_mem hm, ?_⟩
      simpa using List.ne_nil_of_mem hrest
    exact .inr (List.mem_flatten.2 ⟨_, hlist, hrest⟩)

theorem nextHead_mem (h : nextHead lists = some c) : c ∈ lists.flatten := by
  obtain ⟨m, hm, hhead⟩ := List.mem_filterMap.1 (List.mem_of_find?_eq_some h)
  exact List.mem_flatten.2 ⟨m, hm, List.mem_of_mem_head? hhead⟩

theorem mem_mergeSteps {fuel : Nat} (h : mergeSteps fuel lists = some l) :
    x ∈ l ↔ x ∈ lists.flatten := by
  induction fuel generalizing lists l with
  | zero =>
    cases lists with
    | nil => simp [← Option.some.inj h]
    | cons => cases h
  | succ fuel ih =>
    cases lists with
    | nil => simp [← Option.some.inj h]
    | cons m ms =>
      obtain ⟨c, hc, h⟩ := Option.bind_eq_some_iff.1 h
      obtain ⟨rest, hrest, h⟩ := Option.bind_eq_some_iff.1 h
      obtain rfl := Option.some.inj h
      rw [List.mem_cons, ih hrest]
      constructor
      · rintro (rfl | hx)
        · exact nextHead_mem hc
        · exact mem_advance hx
      · exact mem_or_mem_advance

theorem mem_merge (h : merge lists = some l) : x ∈ l ↔ x ∈ lists.flatten := by
  rw [mem_mergeSteps h, List.flatten_filter_not_isEmpty]

theorem ofBases_eq_some (h : ofBases c bases lists = some l) :
    ∃ rest, l = c :: rest ∧ ∀ x, x ∈ rest ↔ x ∈ lists.flatten ∨ x ∈ bases := by
  unfold ofBases at h
  split at h
  · obtain ⟨rest, hrest, rfl⟩ := Option.map_eq_some_iff.1 h
    refine ⟨rest, rfl, fun x => ?_⟩
    rw [mem_merge hrest, List.flatten_append, List.mem_append, List.flatten_singleton]
  · cases h

end Lineage

namespace World

variable {w w' : World} {a b c : ClassId}

theorem derives_iff : w.derives c b = true ↔ b ∈ w.lineage c := List.contains_iff_mem

/-- Every class derives from itself, and from what its ancestors derive from. -/
structure Lineal (w : World) : Prop where
  self : ∀ c, c ∈ w.lineage c
  inherited : ∀ c, ∀ b ∈ w.lineage c, w.lineage b ⊆ w.lineage c

theorem Lineal.trans (h : w.Lineal) (hab : w.derives a b = true) (hbc : w.derives b c = true) :
    w.derives a c = true :=
  derives_iff.2 (h.inherited a b (derives_iff.1 hab) (derives_iff.1 hbc))

/-- No class of the world derives from the class. -/
def Fresh (w : World) (c : ClassId) : Prop :=
  c ≠ ClassId.object ∧ ∀ info ∈ w.classes, c ∉ info.lineage

instance (w : World) (c : ClassId) : Decidable (w.Fresh c) := by unfold Fresh; infer_instance

theorem lineage_of_find? {info : ClassInfo} (h : w.find? c = some info) :
    w.lineage c = info.lineage := by rw [lineage, h]

theorem lineage_of_absent (h : w.find? c = none) : w.lineage c = [c, ClassId.object] := by
  rw [lineage, h]

theorem Fresh.eq_of_mem (h : w.Fresh c) (hb : c ∈ w.lineage b) : b = c := by
  cases hfound : w.find? b with
  | some info =>
    rw [lineage_of_find? hfound] at hb
    exact absurd hb (h.2 info (List.mem_of_find?_eq_some hfound))
  | none =>
    rw [lineage_of_absent hfound] at hb
    simpa [h.1, eq_comm] using hb

theorem Fresh.absent (h : w.Fresh c) (hw : w.Lineal) : w.find? c = none := by
  cases hfound : w.find? c with
  | none => rfl
  | some info =>
    have hself := hw.self c
    rw [lineage_of_find? hfound] at hself
    exact absurd hself (h.2 info (List.mem_of_find?_eq_some hfound))

/-- A new class whose lineage has the lineages that its members come from leaves deriving transitive. -/
theorem Lineal.add (hw : w.Lineal) {info : ClassInfo} {rest : List ClassId}
    (hfresh : w.Fresh info.id) (hlineage : info.lineage = info.id :: rest)
    (hrest : ∀ x ∈ rest, ∃ b, x ∈ w.lineage b ∧ w.lineage b ⊆ rest) :
    { w with classes := w.classes ++ [info] }.Lineal := by
  have hnew : { w with classes := w.classes ++ [info] }.lineage info.id = info.id :: rest := by
    rw [← hlineage]
    apply lineage_of_find?
    rw [find?_declared, hfresh.absent hw, if_pos rfl, Option.none_or]
  have hold : ∀ c, c ≠ info.id →
      { w with classes := w.classes ++ [info] }.lineage c = w.lineage c := by
    intro c hc
    rw [lineage, find?_declared, if_neg hc.symm, Option.or_none, lineage]
  constructor
  · intro c
    by_cases hc : c = info.id
    · rw [hc, hnew]
      exact List.mem_cons_self
    · rw [hold c hc]
      exact hw.self c
  · intro c b hb
    by_cases hbnew : b = info.id
    · -- Only the new class derives from the new one.
      by_cases hc : c = info.id
      · rw [hbnew, hc]
        exact List.Subset.refl _
      · rw [hold c hc, hbnew] at hb
        exact absurd (hfresh.eq_of_mem hb) hc
    · rw [hold b hbnew]
      by_cases hc : c = info.id
      · rw [hc, hnew] at hb ⊢
        obtain ⟨k, hk, hsub⟩ := hrest b ((List.mem_cons.1 hb).resolve_left hbnew)
        have hbrest : w.lineage b ⊆ rest := List.Subset.trans (hw.inherited k b hk) hsub
        exact List.Subset.trans hbrest (List.subset_cons_self _ _)
      · rw [hold c hc] at hb ⊢
        exact hw.inherited c b hb

theorem declaredLineage_eq_ok {d : Declaration} {l : List ClassId}
    (h : w.declaredLineage d = .ok l) :
    ∃ bases, Lineage.ofBases d.id bases (bases.map w.lineage) = some l := by
  unfold declaredLineage at h
  dsimp only at h
  split at h
  · cases h
  · split at h
    · cases h
    · split at h
      · next hmerged => exact ⟨_, hmerged.trans (congrArg some (Except.ok.inj h))⟩
      · cases h

/-- A declaration adds one class; its lineage is merged from those of its bases. -/
theorem declare?_eq_ok {d : Declaration} (h : w.declare? d = .ok w') :
    ∃ info bases, info.id = d.id ∧ w' = { w with classes := w.classes ++ [info] } ∧
      Lineage.ofBases d.id bases (bases.map w.lineage) = some info.lineage := by
  unfold declare? at h
  obtain ⟨l, hl, h⟩ := except_bind_ok h
  obtain ⟨bases, hmerged⟩ := declaredLineage_eq_ok hl
  dsimp only at h
  split at h
  · cases h
  · split at h
    · cases h
    · exact ⟨_, bases, rfl, (Except.ok.inj h).symm, hmerged⟩

theorem Lineal.declare (hw : w.Lineal) {d : Declaration} (hfresh : w.Fresh d.id)
    (h : w.declare? d = .ok w') : w'.Lineal := by
  obtain ⟨info, bases, hid, rfl, hmerged⟩ := declare?_eq_ok h
  rw [← hid] at hfresh hmerged
  obtain ⟨rest, hlineage, hrest⟩ := Lineage.ofBases_eq_some hmerged
  refine hw.add hfresh hlineage fun x hx => ?_
  have hlineages : ∀ b ∈ bases, w.lineage b ⊆ rest := fun b hb y hy =>
    (hrest y).2 (.inl (List.mem_flatten.2 ⟨_, List.mem_map_of_mem hb, hy⟩))
  rcases (hrest x).1 hx with hx | hx
  · obtain ⟨m, hm, hx⟩ := List.mem_flatten.1 hx
    obtain ⟨b, hb, rfl⟩ := List.mem_map.1 hm
    exact ⟨b, hx, hlineages b hb⟩
  · exact ⟨x, hw.self x, hlineages x hx⟩

/-- The worlds that there are: the standard one, and what declarations of new classes, classes of
loaded modules and changes of anything but lineages make of them. -/
inductive Formed : World → Prop
  | standard : Formed World.standard
  | declared {w w' : World} (d : Declaration) (before : Formed w) (fresh : w.Fresh d.id)
      (run : w.declare? d = .ok w') : Formed w'
  | loaded (x : Execution) (name : String) (base : ClassId) (before : Formed x.world)
      (fresh : x.world.Fresh ⟨x.name, name, x.number⟩) : Formed (x.declareClass name base).world
  | kept {w w' : World} (before : Formed w) (same : ∀ c, w'.lineage c = w.lineage c) : Formed w'

theorem standard_lineal : World.standard.Lineal := by
  have hclasses : ∀ info ∈ World.standard.classes, info.id ∈ info.lineage ∧
      ∀ b ∈ info.lineage, World.standard.lineage b ⊆ info.lineage := by decide +kernel
  constructor
  · intro c
    cases hfound : World.standard.find? c with
    | some info =>
      have hid : info.id = c := by simpa using List.find?_some hfound
      rw [lineage_of_find? hfound, ← hid]
      exact (hclasses info (List.mem_of_find?_eq_some hfound)).1
    | none =>
      rw [lineage_of_absent hfound]
      exact List.mem_cons_self
  · intro c b hb
    cases hfound : World.standard.find? c with
    | some info =>
      rw [lineage_of_find? hfound] at hb ⊢
      exact (hclasses info (List.mem_of_find?_eq_some hfound)).2 b hb
    | none =>
      rw [lineage_of_absent hfound] at hb ⊢
      rcases List.mem_cons.1 hb with rfl | hb
      · rw [lineage_of_absent hfound]
        exact List.Subset.refl _
      · rw [List.mem_singleton.1 hb]
        have hobject : World.standard.lineage ClassId.object = [ClassId.object] := rfl
        rw [hobject]
        exact List.subset_cons_self _ _

theorem Formed.lineal (h : w.Formed) : w.Lineal := by
  induction h with
  | standard => exact standard_lineal
  | declared d _ fresh run ih => exact ih.declare fresh run
  | loaded x name base _ fresh ih =>
    exact ih.add fresh rfl fun y hy => ⟨base, hy, List.Subset.refl _⟩
  | kept _ same ih =>
    constructor
    · intro c
      rw [same]
      exact ih.self c
    · intro c b hb
      rw [same] at hb
      rw [same, same]
      exact ih.inherited c b hb

end World

end ModelContracts
