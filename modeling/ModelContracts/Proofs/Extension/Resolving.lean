import Mathlib.Data.List.Nodup
import ModelContracts.Contract.Extension

/-!
The contract that a request leads to. The candidates are the classes among the values of a module that
record, by a marker on themselves, a name with the last part that is asked for. A request that is no
contract leads to the only candidate, is missing when there is none, and is ambiguous when there are
several. Which candidates there are, and so the outcome and its text, depends neither on the names and
the order of the attributes nor on how often a class or a marker stands there.
-/

namespace ModelContracts

/-! Lists. -/

theorem nodup_eraseDups {α : Type} [DecidableEq α] (l : List α) : l.eraseDups.Nodup := by
  induction hn : l.length using Nat.strongRecOn generalizing l with
  | ind n ih =>
    cases l with
    | nil => exact List.nodup_nil
    | cons a l =>
      rw [List.eraseDups_cons, List.nodup_cons]
      refine ⟨fun hmem => ?_, ih _ ?_ _ rfl⟩
      · simp [List.mem_eraseDups] at hmem
      · have hle := List.length_filter_le (fun b => !b == a) l
        simp only [List.length_cons] at hn
        omega

/-- Filtering by a test that cannot fail. -/
theorem filterM_ok {ε α : Type} {p : α → Except ε Bool} {q : α → Bool} {l : List α}
    (h : ∀ a ∈ l, p a = .ok (q a)) : l.filterM p = .ok (l.filter q) := by
  have haux : ∀ done : List α, l.filterAuxM p done = .ok ((l.filter q).reverse ++ done) := by
    induction l with
    | nil => exact fun done => rfl
    | cons a l ih =>
      intro done
      have hrest := ih fun b hb => h b (List.mem_cons_of_mem a hb)
      rw [List.filterAuxM, h a List.mem_cons_self]
      have hnext : l.filterAuxM p (cond (q a) (a :: done) done) =
          .ok (((a :: l).filter q).reverse ++ done) := by
        rw [hrest]
        cases hq : q a <;> simp [hq]
      exact hnext
  rw [List.filterM, haux []]
  simp [Bind.bind, Except.bind, Pure.pure, Except.pure]

/-- Filtering by a test that fails on one of the elements. -/
theorem filterM_error {ε α : Type} {p : α → Except ε Bool} {l : List α}
    (h : ∃ a ∈ l, ∃ e, p a = .error e) : ∃ a ∈ l, ∃ e, p a = .error e ∧ l.filterM p = .error e := by
  have haux : ∃ a ∈ l, ∃ e, p a = .error e ∧ ∀ done, l.filterAuxM p done = .error e := by
    induction l with
    | nil => simp at h
    | cons b l ih =>
      cases hb : p b with
      | error e =>
        refine ⟨b, List.mem_cons_self, e, hb, fun done => ?_⟩
        rw [List.filterAuxM, hb]
        rfl
      | ok q =>
        obtain ⟨a, ha, e, he⟩ := h
        have hl : a ∈ l := by
          rcases List.mem_cons.1 ha with rfl | hl
          · rw [hb] at he
            cases he
          · exact hl
        obtain ⟨c, hc, f, hf, hrest⟩ := ih ⟨a, hl, e, he⟩
        refine ⟨c, List.mem_cons_of_mem b hc, f, hf, fun done => ?_⟩
        rw [List.filterAuxM, hb]
        exact hrest _
  obtain ⟨a, ha, e, he, hl⟩ := haux
  refine ⟨a, ha, e, he, ?_⟩
  rw [List.filterM, hl []]
  rfl

/-! Candidates. -/

/-- A class is the value of an attribute. -/
def Module.Holds (m : Module) (c : ClassId) : Prop := ∃ a ∈ m.attributes, a.2.class? = some c

namespace World

variable {w w' : World} {m m' : Module} {c : ClassId} {name : String}

/-- An identity marker on the class itself records a name with this last part. -/
def Records (w : World) (c : ClassId) (name : String) : Prop :=
  ∃ k ∈ w.markersOf c, w.derives k.kind MarkerShape.className.kind = true ∧
    ∃ text, (k.field "type_name").text? = some text ∧ Text.lastPiece '.' text = name

/-- What the identity markers on a class record are texts. -/
def RecordsTexts (w : World) (c : ClassId) : Prop :=
  ∀ k ∈ w.markersOf c, w.derives k.kind MarkerShape.className.kind = true →
    ∃ text, (k.field "type_name").text? = some text

def Candidate (w : World) (m : Module) (name : String) (c : ClassId) : Prop :=
  m.Holds c ∧ w.Records c name

theorem mem_moduleClasses : c ∈ moduleClasses m ↔ m.Holds c := by
  simp [moduleClasses, List.mem_eraseDups, Module.Holds]

theorem mem_classMarkersOf {k : Marker} {kind : ClassId} :
    k ∈ w.classMarkersOf c kind ↔ k ∈ w.markersOf c ∧ w.derives k.kind kind = true := by
  simp [classMarkersOf]

theorem recordedSimpleNames_texts (h : w.RecordsTexts c) :
    ∃ names, w.recordedSimpleNames c = .ok names ∧ ∀ name, name ∈ names ↔ w.Records c name := by
  have hks : ∀ k ∈ w.classMarkersOf c MarkerShape.className.kind,
      ∃ text, (k.field "type_name").text? = some text := fun k hk =>
    h k (mem_classMarkersOf.1 hk).1 (mem_classMarkersOf.1 hk).2
  have hnames : ∀ name, w.Records c name ↔ ∃ k ∈ w.classMarkersOf c MarkerShape.className.kind,
      ∃ text, (k.field "type_name").text? = some text ∧ Marker.simpleName text = name := fun name => by
    simp only [Records, mem_classMarkersOf, and_assoc, Marker.simpleName]
  simp only [hnames, recordedSimpleNames]
  generalize w.classMarkersOf c MarkerShape.className.kind = ks at hks
  induction ks with
  | nil => exact ⟨[], rfl, by simp⟩
  | cons k ks ih =>
    obtain ⟨text, htext⟩ := hks k List.mem_cons_self
    obtain ⟨names, hrun, hmem⟩ := ih fun j hj => hks j (List.mem_cons_of_mem k hj)
    refine ⟨Marker.simpleName text :: names, ?_, fun name => ?_⟩
    · rw [List.mapM_cons, htext, hrun]
      rfl
    · simp [htext, hmem, eq_comm]

theorem recordedSimpleNames_malformed (h : ¬ w.RecordsTexts c) :
    ∃ v, w.recordedSimpleNames c = .error (.malformed v) := by
  have hks : ∃ k ∈ w.classMarkersOf c MarkerShape.className.kind,
      (k.field "type_name").text? = none := by
    simp only [RecordsTexts, not_forall, not_exists] at h
    obtain ⟨k, hk, hkind, hnone⟩ := h
    exact ⟨k, mem_classMarkersOf.2 ⟨hk, hkind⟩, Option.eq_none_iff_forall_ne_some.2 hnone⟩
  rw [recordedSimpleNames]
  generalize w.classMarkersOf c MarkerShape.className.kind = ks at hks
  induction ks with
  | nil => simp at hks
  | cons j ks ih =>
    rw [List.mapM_cons]
    cases hj : (j.field "type_name").text? with
    | none => exact ⟨_, rfl⟩
    | some text =>
      obtain ⟨k, hk, hnone⟩ := hks
      have hrest : k ∈ ks := by
        rcases List.mem_cons.1 hk with rfl | hrest
        · rw [hj] at hnone
          cases hnone
        · exact hrest
      obtain ⟨v, hv⟩ := ih ⟨k, hrest, hnone⟩
      exact ⟨v, by rw [hv]; rfl⟩

/-- The candidates, each once. -/
theorem recorded_candidates (h : ∀ c, m.Holds c → w.RecordsTexts c) (name : String) :
    ∃ found, w.recorded m name = .ok found ∧ found.Nodup ∧ ∀ c, c ∈ found ↔ w.Candidate m name c := by
  classical
  have htests : ∀ c ∈ moduleClasses m,
      (do return (← w.recordedSimpleNames c).contains name : Except ExtensionError Bool) =
        .ok (decide (w.Records c name)) := by
    intro c hc
    obtain ⟨names, hrun, hmem⟩ := recordedSimpleNames_texts (h c (mem_moduleClasses.1 hc))
    rw [hrun]
    simp [Bind.bind, Except.bind, Pure.pure, Except.pure, List.contains_eq_mem, hmem]
  refine ⟨_, filterM_ok htests, (nodup_eraseDups _).filter _, fun c => ?_⟩
  rw [List.mem_filter, mem_moduleClasses, decide_eq_true_iff]
  exact Iff.rfl

theorem recorded_malformed (h : ¬ ∀ c, m.Holds c → w.RecordsTexts c) (name : String) :
    ∃ v, w.recorded m name = .error (.malformed v) := by
  have htest : ∀ c, ¬ w.RecordsTexts c → ∃ v,
      (do return (← w.recordedSimpleNames c).contains name : Except ExtensionError Bool) =
        .error (.malformed v) := by
    intro c hc
    obtain ⟨v, hv⟩ := recordedSimpleNames_malformed hc
    exact ⟨v, by rw [hv]; rfl⟩
  simp only [not_forall] at h
  obtain ⟨c, hc, hbad⟩ := h
  have hfails : ∃ c ∈ moduleClasses m, ∃ e,
      (do return (← w.recordedSimpleNames c).contains name : Except ExtensionError Bool) = .error e := by
    obtain ⟨v, hv⟩ := htest c hbad
    exact ⟨c, mem_moduleClasses.2 hc, _, hv⟩
  obtain ⟨d, -, e, he, hrun⟩ := filterM_error hfails
  by_cases hd : w.RecordsTexts d
  · obtain ⟨names, hnames, -⟩ := recordedSimpleNames_texts hd
    rw [hnames] at he
    cases he
  · obtain ⟨u, hu⟩ := htest d hd
    rw [hu] at he
    cases he
    exact ⟨u, hrun⟩

/-- The outcome for the classes that were found. -/
def outcomeOf (name : String) : List ClassId → Except ExtensionError ClassId
  | [] => .error (.missing name)
  | [c] => .ok c
  | found => .error (.ambiguous name found)

/-- A request that is no contract itself is looked for among the candidates. -/
theorem resolveContract_search {r : ContractRequest}
    (hr : ∀ c, r = .cls c → w.derives c ClassId.modelNode = false) :
    w.resolveContract m r = w.recorded m r.simpleName >>= outcomeOf r.simpleName := by
  cases r with
  | cls c =>
    rw [resolveContract, hr c rfl, if_neg Bool.false_ne_true]
    rfl
  | name text => rfl

theorem resolveContract_malformed {r : ContractRequest}
    (hr : ∀ c, r = .cls c → w.derives c ClassId.modelNode = false)
    (h : ¬ ∀ c, m.Holds c → w.RecordsTexts c) : ∃ v, w.resolveContract m r = .error (.malformed v) := by
  obtain ⟨v, hv⟩ := recorded_malformed h r.simpleName
  exact ⟨v, by rw [resolveContract_search hr, hv]; rfl⟩

theorem resolveContract_candidates {r : ContractRequest}
    (hr : ∀ c, r = .cls c → w.derives c ClassId.modelNode = false)
    (h : ∀ c, m.Holds c → w.RecordsTexts c) :
    ∃ found, w.resolveContract m r = outcomeOf r.simpleName found ∧ found.Nodup ∧
      ∀ c, c ∈ found ↔ w.Candidate m r.simpleName c := by
  obtain ⟨found, hrun, hnodup, hall⟩ := recorded_candidates h r.simpleName
  exact ⟨found, by rw [resolveContract_search hr, hrun]; rfl, hnodup, hall⟩

/-! Outcomes. -/

theorem outcomeOf_eq_ok {found : List ClassId} : outcomeOf name found = .ok c ↔ found = [c] := by
  rcases found with _ | ⟨d, _ | ⟨d', rest⟩⟩ <;> simp [outcomeOf]

theorem resolveContract_eq_ok {r : ContractRequest}
    (hr : ∀ c, r = .cls c → w.derives c ClassId.modelNode = false)
    (h : ∀ c, m.Holds c → w.RecordsTexts c) :
    w.resolveContract m r = .ok c ↔ ∀ d, w.Candidate m r.simpleName d ↔ d = c := by
  obtain ⟨found, hrun, hnodup, hall⟩ := resolveContract_candidates hr h
  rw [hrun, outcomeOf_eq_ok]
  constructor
  · rintro rfl d
    exact (hall d).symm.trans List.mem_singleton
  · intro honly
    have hsame : ∀ d, d ∈ found ↔ d ∈ [c] := fun d =>
      (hall d).trans ((honly d).trans List.mem_singleton.symm)
    exact List.perm_singleton.1 ((List.perm_ext_iff_of_nodup hnodup (List.nodup_singleton c)).2 hsame)

theorem outcomeOf_eq_missing {found : List ClassId} :
    outcomeOf name found = .error (.missing name) ↔ found = [] := by
  rcases found with _ | ⟨d, _ | ⟨d', rest⟩⟩ <;> simp [outcomeOf]

theorem outcomeOf_eq_ambiguous {found several : List ClassId} :
    outcomeOf name found = .error (.ambiguous name several) ↔ found = several ∧ 2 ≤ found.length := by
  rcases found with _ | ⟨d, _ | ⟨d', rest⟩⟩ <;> simp [outcomeOf]

theorem outcomeOf_name {found : List ClassId} {e : ExtensionError}
    (h : outcomeOf name found = .error e) : e.name? = some name := by
  rcases found with _ | ⟨d, _ | ⟨d', rest⟩⟩ <;> cases h <;> rfl

end World

/-- What an error shows: the name that was asked for, and its text. -/
def ExtensionError.shown (e : ExtensionError) : Option String × Option String := (e.name?, e.message?)

namespace World

variable {w w' : World} {m m' : Module} {c : ClassId} {name : String}

theorem outcomeOf_perm {found found' : List ClassId} (h : found.Perm found') :
    (outcomeOf name found).mapError ExtensionError.shown =
      (outcomeOf name found').mapError ExtensionError.shown := by
  rcases found with _ | ⟨d, _ | ⟨d', rest⟩⟩
  · rw [h.nil_eq]
  · rw [List.perm_singleton.1 h.symm]
  · rcases found' with _ | ⟨b, _ | ⟨b', rest'⟩⟩
    · cases h.symm.nil_eq
    · have hlength := h.length_eq
      simp at hlength
    · have hnames := Text.sorted_eq_of_perm (h.map ClassId.simpleName)
      simp only [outcomeOf, Except.mapError, ExtensionError.shown, ExtensionError.name?,
        ExtensionError.message?, hnames]

/-- Namespaces with the same classes and the same markers on them, whatever the attributes are called,
in whatever order attributes and markers were added, and however often. -/
structure SameNamespace (w w' : World) (m m' : Module) : Prop where
  holds : ∀ c, m.Holds c ↔ m'.Holds c
  markers : ∀ c, m.Holds c → ∀ k, k ∈ w.markersOf c ↔ k ∈ w'.markersOf c
  derives : ∀ c d, w.derives c d = w'.derives c d

theorem SameNamespace.candidate (h : SameNamespace w w' m m') :
    w.Candidate m name c ↔ w'.Candidate m' name c := by
  simp only [Candidate, Records, ← h.holds, ← h.derives]
  refine and_congr_right fun hc => ?_
  simp only [h.markers c hc]

theorem SameNamespace.recordsTexts (h : SameNamespace w w' m m') (ht : ∀ c, m.Holds c → w.RecordsTexts c) :
    ∀ c, m'.Holds c → w'.RecordsTexts c := by
  intro c hc k hk hkind
  have hheld := (h.holds c).2 hc
  exact ht c hheld k ((h.markers c hheld k).2 hk) ((h.derives _ _).trans hkind)

end World

/-! A contract under two names, with its marker twice, beside two contracts of one name. -/

namespace Doubled

def named (text : String) : Marker := .stock .className [.text text]

def baz : ClassId := ⟨"gen", "IModelBaz", 0⟩

def bar : ClassId := ⟨"gen", "IModelBar", 0⟩

def gridBar : ClassId := ⟨"gen", "IModelGridBar", 0⟩

def world : World where
  classes := []
  modules := []
  classMarkers := [(baz, [named "app.components.Baz", named "app.components.Baz"]),
    (bar, [named "app.components.Bar"]), (gridBar, [named "app.grid.Bar", named "Grid"])]

def space : Module where
  name := "gen"
  attributes := [("Baz", .cls baz), ("IModelBar", .cls bar), ("IModelBaz", .cls baz), ("size", .value (.int 5)),
    ("IModelGridBar", .cls gridBar)]

/-- The same classes and markers, each once and in another order. -/
def plainWorld : World where
  classes := []
  modules := []
  classMarkers := [(gridBar, [named "Grid", named "app.grid.Bar"]), (bar, [named "app.components.Bar"]),
    (baz, [named "app.components.Baz"])]

def plainSpace : Module where
  name := "other"
  attributes := [("c", .cls gridBar), ("b", .cls bar), ("a", .cls baz)]

theorem space_holds {c : ClassId} : space.Holds c ↔ c ∈ [baz, bar, gridBar] := by
  simp [Module.Holds, space, Entity.class?, eq_comm]
  tauto

theorem plainSpace_holds {c : ClassId} : plainSpace.Holds c ↔ c ∈ [baz, bar, gridBar] := by
  simp [Module.Holds, plainSpace, Entity.class?, eq_comm]
  tauto

theorem recordsTexts (c : ClassId) (hc : space.Holds c) : world.RecordsTexts c := by
  have hall : ∀ c ∈ [baz, bar, gridBar], ∀ k ∈ world.markersOf c,
      (k.field "type_name").text?.isSome = true := by decide
  exact fun k hk _ => Option.isSome_iff_exists.1 (hall c (space_holds.1 hc) k hk)

theorem sameNamespace : World.SameNamespace world plainWorld space plainSpace where
  holds c := space_holds.trans plainSpace_holds.symm
  markers c hc k := by
    have hthree := space_holds.1 hc
    simp only [List.mem_cons, List.not_mem_nil, or_false] at hthree
    rcases hthree with rfl | rfl | rfl
    · change k ∈ [named "app.components.Baz", named "app.components.Baz"] ↔ k ∈ [named "app.components.Baz"]
      simp
    · exact Iff.rfl
    · change k ∈ [named "app.grid.Bar", named "Grid"] ↔ k ∈ [named "Grid", named "app.grid.Bar"]
      simp [or_comm]
  derives _ _ := rfl

theorem candidate_of_text {c : ClassId} (hc : space.Holds c) {text name : String}
    (hk : named text ∈ world.markersOf c) (hname : Text.lastPiece '.' text = name) :
    world.Candidate space name c := by
  have hkind : world.derives MarkerShape.className.kind MarkerShape.className.kind = true := by decide
  exact ⟨hc, named text, hk, hkind, text, rfl, hname⟩

end Doubled

/-! A class with an identity marker that records a number. -/

namespace Miscounted

def odd : ClassId := ⟨"gen", "Odd", 0⟩

def world : World where
  classes := []
  modules := []
  classMarkers := [(odd, [.stock .className [.int 5]])]

def space : Module where
  name := "gen"
  attributes := [("Odd", .cls odd)]

end Miscounted

end ModelContracts
