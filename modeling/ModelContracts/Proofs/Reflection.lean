import Mathlib.Tactic.SplitIfs
import ModelContracts.Proofs.Running
import ModelContracts.Property.Reflection

/-!
The descriptors that reflection finds: each name once, and none for a class that the world does not
describe.
-/

namespace ModelContracts

namespace Descriptor

theorem name_withMarkers (w : World) (d : Descriptor) (ms : List Marker) :
    (d.withMarkers w ms).name = d.name := by
  have hattach : ∀ (l : List Marker) (d' : Descriptor), (l.foldl attach d').name = d'.name := by
    intro l
    induction l with
    | nil => exact fun _ => rfl
    | cons m l ih => exact fun d' => ih (d'.attach m)
  exact hattach _ _

end Descriptor

namespace World

variable (w : World)

def namesOf (found : List Descriptor) : List String := found.map (·.name)

theorem name_described (c declaring : ClassId) (name : String) (d : DeclaredType)
    (writable : Bool) : (w.described c declaring name d writable).name = name :=
  Descriptor.name_withMarkers w _ _

/-- What is found next has a new name. -/
theorem namesOf_append_nodup {found : List Descriptor} {d : Descriptor}
    (h : (namesOf found).Nodup) (hd : found.any (·.name = d.name) = false) :
    (namesOf (found ++ [d])).Nodup := by
  have hnew : d.name ∉ namesOf found := by
    intro hmem
    obtain ⟨d', hd', hname⟩ := List.mem_map.1 hmem
    have hany : found.any (·.name = d.name) = true :=
      List.any_eq_true.2 ⟨d', hd', by simpa using hname⟩
    rw [hd] at hany
    cases hany
  simp only [namesOf, List.map_append, List.map_cons, List.map_nil]
  exact List.nodup_append.2 ⟨h, by simp, fun a ha b hb hab => hnew (by simp_all [namesOf])⟩

theorem reflectAttributes_nodup (c declaring : ClassId) (hints : List (String × TypeExpr))
    (names : List String) {found : List Descriptor} (h : (namesOf found).Nodup) :
    (namesOf (w.reflectAttributes c declaring hints names found)).Nodup := by
  induction names generalizing found with
  | nil => exact h
  | cons name rest ih =>
    refine ih ?_
    split_ifs with hseen
    · exact h
    · split
      · exact h
      · rw [Bool.not_eq_true, Bool.or_eq_false_iff] at hseen
        refine namesOf_append_nodup h ?_
        rw [name_described]
        exact hseen.2

theorem reflectProperties_nodup (c declaring : ClassId) (props : List Property)
    {found ds : List Descriptor} (h : (namesOf found).Nodup)
    (hr : w.reflectProperties c declaring props found = .ok ds) : (namesOf ds).Nodup := by
  induction props generalizing found with
  | nil =>
    cases hr
    exact h
  | cons p rest ih =>
    unfold reflectProperties at hr
    dsimp only at hr
    split_ifs at hr with hseen
    · exact ih h hr
    · split at hr
      · exact ih h hr
      · obtain ⟨t, -, hr⟩ := except_bind_ok hr
        rw [Bool.not_eq_true, Bool.or_eq_false_iff, Bool.or_eq_false_iff] at hseen
        refine ih (namesOf_append_nodup h ?_) hr
        rw [name_described]
        exact hseen.1.2

theorem reflect?_nodup {c : ClassId} {ds : List Descriptor} (h : w.reflect? c = .ok ds) :
    (namesOf ds).Nodup := by
  obtain ⟨hints, -, hr⟩ := except_bind_ok h
  refine foldlM_ok (P := fun found => (namesOf found).Nodup) (b := []) ?_ List.nodup_nil hr
  intro found declaring next hfound hnext
  exact w.reflectProperties_nodup c declaring _
    (w.reflectAttributes_nodup c declaring hints _ hfound) hnext

theorem candidates?_nodup {c : ClassId} {ds : List Descriptor} (h : w.candidates? c = .ok ds) :
    (namesOf ds).Nodup := by
  obtain ⟨found, hfound, hr⟩ := except_bind_ok h
  cases hr
  exact (w.reflect?_nodup hfound).sublist (List.Sublist.map _ List.filter_sublist)

/-- A class without a description has no properties. -/
theorem candidates?_of_unknown {c : ClassId} {ds : List Descriptor} (hc : w.find? c = none)
    (h : w.candidates? c = .ok ds) : ds = [] := by
  obtain ⟨found, hfound, hr⟩ := except_bind_ok h
  cases hr
  obtain ⟨hints, -, hr⟩ := except_bind_ok hfound
  have hclass : w.reflectClass c c hints [] = .ok [] := by
    simp [reflectClass, ownProperties, ownAttributes, hc, reflectAttributes, reflectProperties]
  have hempty : found = [] := by
    simp only [lineage, hc] at hr
    by_cases ho : c = ClassId.object
    · subst ho
      simp at hr
      cases hr
      rfl
    · simp [ho, hclass] at hr
      cases hr
      rfl
  rw [hempty]
  rfl

theorem candidates?_undescribed {c : ClassId} (hc : w.find? c = none) (ho : w.find? ClassId.object = none) :
    w.candidates? c = .ok [] := by
  have hlineage : w.lineage c = [c, ClassId.object] := by
    unfold lineage
    rw [hc]
  have hown {d : ClassId} (hd : w.find? d = none) : w.resolvedAttributes? d = .ok [] := by
    unfold resolvedAttributes? ownAttributes
    rw [hd]
    rfl
  have hhints : w.hints? c = .ok [] := by
    unfold hints?
    rw [hlineage, List.mapM_cons, hown hc, List.mapM_cons, hown ho]
    rfl
  have hclass : w.reflectClass c c [] [] = .ok [] := by
    unfold reflectClass ownProperties ownAttributes
    rw [hc]
    rfl
  have hreflect : w.reflect? c = .ok [] := by
    unfold reflect?
    rw [hhints, hlineage]
    by_cases hobject : c = ClassId.object
    · subst hobject
      rfl
    · have hrest : [c, ClassId.object].filter (· ≠ ClassId.object) = [c] := by simp [hobject]
      rw [hrest]
      show (w.reflectClass c c [] []).bind Except.ok = .ok []
      rw [hclass]
      rfl
  unfold candidates?
  rw [hreflect]
  rfl

variable {w} in
/-- It is enough to look at the classes that a world describes. -/
theorem candidates?_all {P : List Descriptor → Prop} (ho : w.find? ClassId.object = none) (hnil : P [])
    (h : ∀ info ∈ w.classes, ∃ ds, w.candidates? info.id = .ok ds ∧ P ds) (c : ClassId) :
    ∃ ds, w.candidates? c = .ok ds ∧ P ds := by
  rcases hc : w.find? c with _ | info
  · exact ⟨[], w.candidates?_undescribed hc ho, hnil⟩
  · have hid : info.id = c := by simpa using List.find?_some hc
    exact hid ▸ h info (List.mem_of_find?_eq_some hc)

end World

end ModelContracts
