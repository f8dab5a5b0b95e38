import ModelContracts.Proofs.Command.Listing

/-!
A source that is executed twice makes modules of which the same contracts are listed, though their classes
have other numbers: a class keeps its name and the module that it says it is of, its place below the model
node, and what its markers record.
-/

namespace ModelContracts

open Renumbering

namespace Renumbering

variable {ρ : Renumbering} {w w' : World} {c : ClassId} {e : Entity}

theorem moduleName_cls (c : ClassId) : (ρ.cls c).moduleName = c.moduleName := by
  unfold cls
  split_ifs <;> rfl

theorem Reaches.known (h : ρ.Reaches e) (hc : e.class? = some c) : ρ.Known c := by
  unfold Entity.class? at hc
  split at hc <;> cases hc
  · exact h
  · exact Old.known (h c List.mem_cons_self)

theorem class?_entity (h : ρ.Reaches e) : (ρ.entity e).class? = e.class?.map ρ.cls := by
  cases e with
  | cls c => rfl
  | value v =>
    cases v with
    | type t =>
      cases t with
      | cls c => exact congrArg some (Old.cls_eq (h c List.mem_cons_self)).symm
      | _ => rfl
    | _ => rfl
  | _ => rfl

theorem Mirror.classMarkersOf_eq (h : ρ.Mirror w w') (hc : ρ.Known c) {kind : ClassId}
    (hkind : ρ.Old kind) :
    w'.classMarkersOf (ρ.cls c) kind = (w.classMarkersOf c kind).map ρ.marker := by
  have hderives : ∀ m ∈ w.markersOf c, w'.derives (ρ.marker m).kind kind = w.derives m.kind kind :=
    fun m hm => h.derives_eq (h.kinds c hc m hm) hkind
  rw [World.classMarkersOf, World.classMarkersOf, h.markers c hc, List.filter_map]
  exact congrArg (List.map ρ.marker) (List.filter_congr hderives)

theorem Mirror.backing_eq (h : ρ.Mirror w w') (hc : ρ.Known c) :
    Commanding.backing w' (ρ.cls c) = Commanding.backing w c := by
  rw [Commanding.backing, World.recordedName?, h.classMarkersOf_eq hc (old_of_zero rfl),
    Commanding.backing, World.recordedName?]
  cases w.classMarkersOf c MarkerShape.className.kind <;> rfl

theorem Mirror.isAbstract_eq (h : ρ.Mirror w w') (hc : ρ.Known c) :
    Commanding.isAbstract w' (ρ.cls c) = Commanding.isAbstract w c := by
  rw [Commanding.isAbstract, h.classMarkersOf_eq hc (old_of_zero rfl), List.isEmpty_map,
    Commanding.isAbstract]

variable {x x' : Execution}

theorem Twins.contract?_eq (h : ρ.Twins x x') {a : String × Entity} (ha : a ∈ x.attributes) :
    Commanding.contract? x'.world x'.module (a.1, ρ.entity a.2) =
      (Commanding.contract? x.world x.module a).map fun c => (c.1, ρ.cls c.2) := by
  have hreaches := h.reaches a ha
  have hname : x'.module.name = x.module.name := h.name'.trans h.name.symm
  unfold Commanding.contract?
  dsimp only
  rw [class?_entity hreaches]
  rcases hc : a.2.class? with _ | c
  · rfl
  · have hderives := h.world.derives_eq (hreaches.known hc) (old_of_zero rfl : ρ.Old .modelNode)
    dsimp only [Option.map_some]
    rw [moduleName_cls, hname, hderives]
    split_ifs <;> rfl

theorem Twins.contracts_eq (h : ρ.Twins x x') : Commanding.contracts x'.world x'.module =
    (Commanding.contracts x.world x.module).map fun c => (c.1, ρ.cls c.2) := by
  have hattributes : x'.module.attributes = ρ.attributes x.module.attributes := h.attributes
  have hsort : (ρ.attributes x.module.attributes).mergeSort (fun a b => a.1 ≤ b.1) =
      ρ.attributes (x.module.attributes.mergeSort fun a b => a.1 ≤ b.1) :=
    (List.map_mergeSort (f := fun a : String × Entity => (a.1, ρ.entity a.2))
      fun _ _ _ _ => rfl).symm
  rw [Commanding.contracts_eq, hattributes, hsort, Renumbering.attributes, List.filterMap_map,
    Commanding.contracts_eq, List.map_filterMap]
  exact List.filterMap_congr fun a ha => h.contract?_eq (List.mem_mergeSort.1 ha)

/-- The contracts that are listed do not depend on the number. -/
theorem Twins.rows_eq (h : ρ.Twins x x') :
    Commanding.rows x'.world x'.module = Commanding.rows x.world x.module := by
  rw [Commanding.rows, h.contracts_eq, List.map_map, Commanding.rows]
  refine List.map_congr_left fun c hc => ?_
  rw [Commanding.contracts_eq] at hc
  obtain ⟨a, ha, hsome⟩ := List.mem_filterMap.1 hc
  obtain ⟨-, hclass, -⟩ := Commanding.contract?_eq_some.1 hsome
  have hknown := (h.reaches a (List.mem_mergeSort.1 ha)).known hclass
  simp only [Function.comp_apply, h.world.backing_eq hknown, h.world.isAbstract_eq hknown]

end Renumbering

/-- Registering a module does not change what is listed. -/
theorem Commanding.rows_putModule (w : World) (m n : Module) : rows (w.putModule n) m = rows w m := by
  have hderives (c base : ClassId) : (w.putModule n).derives c base = w.derives c base := by
    simp [World.derives, World.lineage]
  have hbacking (c : ClassId) : backing (w.putModule n) c = backing w c := by
    simp [backing, World.recordedName?, World.classMarkersOf, hderives]
  have habstract (c : ClassId) : isAbstract (w.putModule n) c = isAbstract w c := by
    simp [isAbstract, World.classMarkersOf, hderives]
  have hcontract : contract? (w.putModule n) m = contract? w m := by
    funext a
    simp [contract?, hderives]
  simp only [rows, contracts_eq, hcontract, hbacking, habstract]

/-- A source that made a module makes another one of which the same contracts are listed. -/
theorem Compilation.rows_again {w w' v : World} {source source' name : String} {m : Module}
    {statements : List Statement} {first second bound bound' : Nat}
    (h : outcome w first source name = .ok (v, m)) (hsource : Statement.ofSource source = .ok statements)
    (hsource' : Statement.ofSource source' = .ok statements) (hw : w.Within bound)
    (hfirst : bound < first) (hw' : w'.Within bound') (hbound : bound ≤ bound')
    (hsecond : bound' < second) (hsame : World.Same [] name bound w w') :
    ∃ v' m', outcome w' second source' name = .ok (v', m') ∧
      Commanding.rows v' m' = Commanding.rows v m := by
  obtain ⟨statements', x, hstatements, hx, rfl, rfl⟩ := outcome_ok h
  obtain rfl : statements' = statements := Except.ok.inj (hstatements.symm.trans hsource)
  let ρ : Renumbering :=
    { module := name, first := first, second := second, bound := bound, others := []
      undotted := nofun, builtins := nofun, bound_lt_first := hfirst
      bound_lt_second := Nat.lt_of_le_of_lt hbound hsecond }
  have hstart : ρ.Twins _ _ := twins_start hw hfirst hw' hsecond hsame (hw.apart name statements')
  obtain ⟨x', hx', htwins⟩ := hstart.runAll_follows nofun x hx
  refine ⟨_, _, outcome_of_runAll hsource' hx', ?_⟩
  rw [Commanding.rows_putModule, Commanding.rows_putModule, htwins.rows_eq]

end ModelContracts
