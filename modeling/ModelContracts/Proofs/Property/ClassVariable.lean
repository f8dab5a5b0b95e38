import ModelContracts.Proofs.Property.Declaration

/-!
Variables of the class. Where the first annotation of a name is a class variable with a type, no annotation
of the name is ever reflected, and a descriptor of that name comes from a property object. A class variable
without a type is reflected like any other type.
-/

namespace ModelContracts

open TypeExpr

/-- A class variable under annotation layers, with a type or without. -/
def TypeExpr.IsVariable (t : TypeExpr) : Prop := t.IsClassVar ∨ ∃ vs, Under t (.qualifier .classVar) vs

def TypeExpr.isBareVariable (t : TypeExpr) : Bool :=
  match t.base with
  | .qualifier .classVar => true
  | _ => false

theorem DeclaredType.ofAnnotation_classVar {t : TypeExpr} (h : t.IsClassVar) :
    DeclaredType.ofAnnotation t = none := by
  obtain ⟨a, vs, ht⟩ := h
  rw [DeclaredType.ofAnnotation, ht.strip_eq.1]

namespace World

variable (w : World) (c : ClassId)

/-- Every class variable that is the first annotation of a name has a type. -/
def Subscripted : Prop := ∀ c name k t u, w.annotation? c name = some (k, t) → w.resolve? k t = .ok u →
  u.IsVariable → u.IsClassVar

/-- No annotation of the name is reflected: none changes what was found so far, and descriptors of the name
come from property objects. -/
structure PassesOver (name : String) : Prop where
  considered : ∀ hints found k t, w.hints? c = .ok hints →
    w.consider c hints found (.annotated k name t) = .ok found
  described : ∀ ds, w.reflect? c = .ok ds → ∀ d ∈ ds, d.name = name →
    ∃ k p, ClassMember.property k p ∈ w.declarations c ∧ w.Describes c (.property k p) d

/-- The declaration that a descriptor stems from: the first annotation of its name, or a property object. -/
inductive Stems (d : Descriptor) : Prop
  | annotated {k : ClassId} {t u : TypeExpr} {a : DeclaredType}
      (first : w.annotation? c d.name = some (k, t)) (resolved : w.resolve? k t = .ok u)
      (declared : DeclaredType.ofAnnotation u = some a) (type : d.type = a.type)
      (markers : d.markers = w.markersAmong a.notes)
  | property {k : ClassId} {p : Property} (mem : ClassMember.property k p ∈ w.declarations c)
      (describes : w.Describes c (.property k p) d)

variable {w c}

theorem described_eq (k : ClassId) (name : String) (d : DeclaredType) (writable : Bool) :
    (w.described c k name d writable).name = name ∧ (w.described c k name d writable).type = d.type ∧
      (w.described c k name d writable).markers = w.markersAmong d.notes := by
  obtain ⟨as, n, heq, has⟩ := Descriptor.foldl_attach (w.markersAmong d.notes)
    { name := name, type := d.type, declaring := k, reflected := c, readable := true, writable := writable }
  have hdescribed : w.described c k name d writable =
      { name := name, type := d.type, declaring := k, reflected := c, readable := true
        writable := writable, attachments := as, fresh := n } := heq
  rw [hdescribed]
  exact ⟨rfl, rfl, has⟩

/-- What one declaration adds stems from it. -/
theorem stems_consider {hints : List (String × TypeExpr)} {found next : List Descriptor} {e : ClassMember}
    (hh : w.hints? c = .ok hints) (he : e ∈ w.declarations c)
    (h : w.consider c hints found e = .ok next) (hfound : ∀ d ∈ found, w.Stems c d) :
    ∀ d ∈ next, w.Stems c d := by
  cases e with
  | annotated k name t =>
    simp only [consider, reflectAttributes, Except.ok.injEq] at h
    subst h
    split
    · exact hfound
    · split
      · exact hfound
      next a ha =>
        intro d hd
        rcases List.mem_append.1 hd with hd | hd
        · exact hfound d hd
        · rw [List.mem_singleton.1 hd]
          obtain ⟨hname, htype, hmarkers⟩ :=
            described_eq (w := w) (c := c) k name a (a.writable && !w.isFrozen k)
          rcases hints_lookup hh name with ⟨-, hnone⟩ | ⟨k', t', u, hfirst, hu, hlookup⟩
          · rw [hnone] at ha
            cases ha
          · rw [hlookup, Option.bind_some] at ha
            exact .annotated (by rw [hname]; exact hfirst) hu ha htype hmarkers
  | property k p =>
    simp only [consider, reflectProperties] at h
    split at h
    · cases h
      exact hfound
    · split at h
      · cases h
        exact hfound
      next t ht =>
        obtain ⟨u, hu, h⟩ := except_bind_ok h
        cases h
        intro d hd
        rcases List.mem_append.1 hd with hd | hd
        · exact hfound d hd
        · rw [List.mem_singleton.1 hd]
          exact .property he
            (describes_described (e := .property k p) (.property ht hu (under_strip u)))

theorem stems_reflect? {ds : List Descriptor} (h : w.reflect? c = .ok ds) : ∀ d ∈ ds, w.Stems c d := by
  obtain ⟨hints, hh, -⟩ := except_bind_ok h
  rw [reflect?_eq hh] at h
  have hrun : ∀ (es : List ClassMember) (found : List Descriptor), (∀ e ∈ es, e ∈ w.declarations c) →
      (∀ d ∈ found, w.Stems c d) → es.foldlM (w.consider c hints) found = .ok ds →
        ∀ d ∈ ds, w.Stems c d := by
    intro es
    induction es with
    | nil =>
      intro found _ hfound hds
      cases hds
      exact hfound
    | cons e es ih =>
      intro found hes hfound hds
      obtain ⟨he, hes⟩ := List.forall_mem_cons.1 hes
      rw [List.foldlM_cons] at hds
      obtain ⟨next, hnext, hds⟩ := except_bind_ok hds
      exact ih next hes (stems_consider hh he hnext hfound) hds
  exact hrun _ [] (fun _ he => he) nofun h

/-- A name whose first annotation is a class variable with a type is passed over. -/
theorem passesOver_of_classVar {name : String} {k : ClassId} {t u : TypeExpr}
    (hfirst : w.annotation? c name = some (k, t)) (hu : w.resolve? k t = .ok u) (hvar : u.IsClassVar) :
    w.PassesOver c name where
  considered hints found k' t' hh := by
    rcases hints_lookup hh name with ⟨hnone, -⟩ | ⟨k₁, t₁, u₁, hfirst₁, hu₁, hlookup⟩
    · rw [hfirst] at hnone
      cases hnone
    · rw [hfirst, Option.some.injEq, Prod.mk.injEq] at hfirst₁
      obtain ⟨rfl, rfl⟩ := hfirst₁
      rw [hu, Except.ok.injEq] at hu₁
      subst hu₁
      simp [consider, reflectAttributes, hlookup, DeclaredType.ofAnnotation_classVar hvar]
  described ds hds d hd hname := by
    cases stems_reflect? hds d hd with
    | property mem describes => exact ⟨_, _, mem, describes⟩
    | annotated first resolved declared =>
      rw [hname, hfirst, Option.some.injEq, Prod.mk.injEq] at first
      obtain ⟨rfl, rfl⟩ := first
      rw [hu, Except.ok.injEq] at resolved
      subst resolved
      exact absurd hvar (DeclaredType.not_isClassVar declared)

/-- No annotation of a class is a class variable without a type. -/
def typesVariables (w : World) (info : ClassInfo) : Bool := info.attributes.all fun a =>
  match w.resolve? info.id a.2 with
  | .ok u => !u.isBareVariable
  | .error _ => true

theorem subscripted_of_classes (h : w.classes.all w.typesVariables = true) : w.Subscripted := by
  rintro c name k t u hfirst hu (hvar | ⟨vs, hbare⟩)
  · exact hvar
  · obtain ⟨_, k', _, _, hk, -⟩ := List.findSome?_eq_some_iff.1 hfirst
    obtain ⟨t', ht', hkt⟩ := Option.map_eq_some_iff.1 hk
    obtain ⟨rfl, rfl⟩ := Prod.mk.inj hkt
    unfold ownAttributes at ht'
    rcases hinfo : w.find? k' with _ | info <;> rw [hinfo] at ht'
    · cases ht'
    · have hid : info.id = k' := by simpa using List.find?_some hinfo
      obtain ⟨before, after, hattributes, -⟩ := List.lookup_eq_some_iff.1 ht'
      have hmem : (name, t') ∈ info.attributes := by
        rw [show info.attributes = _ from hattributes]
        exact List.mem_append_cons_self
      have htyped := List.all_eq_true.1 (List.all_eq_true.1 h info (List.mem_of_find?_eq_some hinfo)) _ hmem
      rw [hid] at htyped
      simp [hu, TypeExpr.isBareVariable, hbare.strip_eq.1] at htyped

end World

end ModelContracts
