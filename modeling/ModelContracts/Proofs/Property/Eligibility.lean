import ModelContracts.Property.Eligibility
import ModelContracts.Proofs.World.Ancestry

/-!
What the stock filter asks of a property, and how the answer depends on the option groups and on the
marker kinds that it requires. Option groups count only by what derives from them: groups that cover
others accept whatever these do. More groups, more kinds and superclasses in the place of groups cover;
order and repetition do not count.
-/

namespace ModelContracts

namespace Eligibility

/-- The class derives from an option group, a stock one or one of those given. -/
def OfGroup (w : World) (A : List ClassId) (c : ClassId) : Prop :=
  ∃ b ∈ stockOptions ++ A, w.derives c b = true

/-- What is asked of a property when the component's view, the option groups besides the stock ones and
the required marker kinds are given. -/
structure Meets (w : World) (base : ClassId) (A R : List ClassId) (d : Descriptor) : Prop where
  shown : ∀ m ∈ d.markersOf w MarkerShape.browsable.kind, (m.field "browsable").truthy = true
  marked : R = [] ∨ ∃ k ∈ R, d.has w k = true
  unreserved : d.name ≠ "IsReadOnly"
  /-- On the view, a type of an option group or a value-like one will do. -/
  onView : w.derives d.declaring base = true →
    (∃ c, d.type.core.class? = some c ∧ OfGroup w A c) ∨ w.valueLike d.type = true
  /-- Elsewhere, the class has to be of an option group and the type value-like. -/
  elsewhere : w.derives d.declaring base = false →
    OfGroup w A d.declaring ∧ w.valueLike d.type = true

variable {w : World} {d : Descriptor} {base : ClassId} {A A' R R' : List ClassId}

theorem derivesAny_iff {c : ClassId} :
    w.derivesAny c (stockOptions ++ A) = true ↔ OfGroup w A c := by
  rw [World.derivesAny, List.any_eq_true, OfGroup]

theorem typeDerives_iff {t : TypeExpr} :
    typeDerives w t (stockOptions ++ A) = true ↔ ∃ c, t.core.class? = some c ∧ OfGroup w A c := by
  unfold typeDerives
  cases t.core.class? with
  | none => simp
  | some c => simp [derivesAny_iff]

theorem core_cls (c : ClassId) : (TypeExpr.cls c).core.class? = some c := rfl

theorem qualifies_iff : (Eligibility.mk base A R).qualifies w d = true ↔
    (w.derives d.declaring base = true →
      (∃ c, d.type.core.class? = some c ∧ OfGroup w A c) ∨ w.valueLike d.type = true) ∧
    (w.derives d.declaring base = false →
      OfGroup w A d.declaring ∧ w.valueLike d.type = true) := by
  rw [qualifies, knownOptions]
  cases w.derives d.declaring base with
  | true => simp [typeDerives_iff]
  | false => simp [typeDerives_iff, core_cls]

theorem accepts_iff : (Eligibility.mk base A R).accepts w d = true ↔ Meets w base A R d := by
  have hmarked : (R.isEmpty || carriesOne w d R) = true ↔ R = [] ∨ ∃ k ∈ R, d.has w k = true := by
    rw [Bool.or_eq_true, List.isEmpty_iff, carriesOne, List.any_eq_true]
  have hname : (!reservedNames.contains d.name) = true ↔ d.name ≠ "IsReadOnly" := by
    simp [reservedNames]
  rw [accepts, Bool.and_eq_true, Bool.and_eq_true, Bool.and_eq_true, hmarked, hname, qualifies_iff,
    isBrowsable, List.all_eq_true]
  constructor
  · rintro ⟨⟨⟨hshown, hmarked⟩, hname⟩, hview, helsewhere⟩
    exact ⟨hshown, hmarked, hname, hview, helsewhere⟩
  · intro h
    exact ⟨⟨⟨h.shown, h.marked⟩, h.unreserved⟩, h.onView, h.elsewhere⟩

/-! What accepts as much. -/

/-- What is of one of the first option groups is of one of the second. -/
def Covers (w : World) (A A' : List ClassId) : Prop := ∀ c, OfGroup w A c → OfGroup w A' c

theorem covers_of_subset (h : A ⊆ A') : Covers w A A' := by
  rintro c ⟨b, hb, hderives⟩
  rcases List.mem_append.1 hb with hb | hb
  · exact ⟨b, List.mem_append_left _ hb, hderives⟩
  · exact ⟨b, List.mem_append_right _ (h hb), hderives⟩

/-- A superclass covers the class that it stands for. -/
theorem covers_of_derives (hw : w.Formed) {a s : ClassId} (h : w.derives a s = true)
    (front behind : List ClassId) : Covers w (front ++ a :: behind) (front ++ s :: behind) := by
  rintro c ⟨b, hb, hderives⟩
  by_cases hba : b = a
  · rw [hba] at hderives
    exact ⟨s, by simp, hw.lineal.trans hderives h⟩
  · refine ⟨b, ?_, hderives⟩
    simp only [List.mem_append, List.mem_cons, hba, false_or] at hb ⊢
    exact hb.imp id fun hb => hb.imp id .inr

/-- Groups that cover others, and requirements that are met wherever others are, ask for no more. -/
theorem Meets.of_covers (h : Meets w base A R d) (hgroups : Covers w A A')
    (hmarked : R' = [] ∨ ∃ k ∈ R', d.has w k = true) : Meets w base A' R' d where
  shown := h.shown
  marked := hmarked
  unreserved := h.unreserved
  onView hview := by
    rcases h.onView hview with ⟨c, hc, hin⟩ | hvalue
    · exact .inl ⟨c, hc, hgroups c hin⟩
    · exact .inr hvalue
  elsewhere helsewhere := (h.elsewhere helsewhere).imp (hgroups d.declaring) id

theorem marked_of_subset (h : R ⊆ R') (hmarked : ∃ k ∈ R, d.has w k = true) :
    ∃ k ∈ R', d.has w k = true := by
  obtain ⟨k, hk, hhas⟩ := hmarked
  exact ⟨k, h hk, hhas⟩

/-- No requirements stay none when their order or number changes. -/
theorem marked_of_same (h : ∀ k, k ∈ R ↔ k ∈ R') (hmarked : R = [] ∨ ∃ k ∈ R, d.has w k = true) :
    R' = [] ∨ ∃ k ∈ R', d.has w k = true := by
  rcases hmarked with rfl | hmarked
  · exact .inl (List.eq_nil_iff_forall_not_mem.2 fun k hk => List.not_mem_nil ((h k).2 hk))
  · exact .inr (marked_of_subset (fun k hk => (h k).1 hk) hmarked)

theorem Meets.of_same (h : Meets w base A R d) (hA : ∀ c, c ∈ A ↔ c ∈ A') (hR : ∀ k, k ∈ R ↔ k ∈ R') :
    Meets w base A' R' d :=
  h.of_covers (covers_of_subset fun c hc => (hA c).1 hc) (marked_of_same hR h.marked)

end Eligibility

namespace Grouped

def panel : ClassId := ⟨"app", "Panel", 0⟩

def grid : ClassId := ⟨"app", "Grid", 0⟩

def declaration (c : ClassId) (bases : List ClassId) : Declaration :=
  { id := c, kind := .plain, bases := bases, generic := false, iterable := false, hidden := false
    members := [] }

/-- A panel and a grid that derives from it. -/
def panelWorld : World :=
  { World.standard with
    classes := World.standard.classes ++ [{ id := panel, lineage := [panel, ClassId.object] }] }

def world : World :=
  { panelWorld with
    classes := panelWorld.classes ++
      [{ id := grid, lineage := [grid, panel, ClassId.object] }] }

theorem world_formed : world.Formed := by
  have hpanel : panelWorld.Formed :=
    .declared (declaration panel []) .standard (by decide +kernel) rfl
  exact .declared (declaration grid [panel]) hpanel (by decide +kernel) rfl

/-- The width of the grid. -/
def width : Descriptor :=
  { name := "Width", type := .cls ClassId.int, declaring := grid, reflected := grid
    readable := true, writable := true
    attachments := [⟨0, Marker.stock .serializable []⟩] }

def filter (groups required : List ClassId) : Eligibility := ⟨ClassId.modelNode, groups, required⟩

end Grouped

end ModelContracts
