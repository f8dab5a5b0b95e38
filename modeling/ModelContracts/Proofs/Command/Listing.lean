import ModelContracts.Command.Run
import ModelContracts.Proofs.Build.Identifying
import ModelContracts.Proofs.Source.Listing

/-!
The contracts that commands list of a module. Of a module that was compiled these are the contracts of its
plan, sorted by name: the class of each one records the full name of the class behind it, and carries the
mark of abstract classes just when the contract is abstract.
-/

namespace ModelContracts

open Ledger Building Session

/-- Sorting by keys that are all different leaves each key below those that follow. -/
theorem pairwise_mergeSort_keys {α : Type} (key : α → String) {l : List α} (h : (l.map key).Nodup) :
    (l.mergeSort fun a b => key a ≤ key b).Pairwise fun a b => key a < key b := by
  have hsorted : (l.mergeSort fun a b => key a ≤ key b).Pairwise fun a b => key a ≤ key b := by
    refine (List.pairwise_mergeSort (fun a b c hab hbc => ?_) (fun a b => ?_) l).imp of_decide_eq_true
    · exact decide_eq_true (String.le_trans (of_decide_eq_true hab) (of_decide_eq_true hbc))
    · rw [Bool.or_eq_true, decide_eq_true_eq, decide_eq_true_eq]
      exact String.le_total (key a) (key b)
  have hdistinct : (l.mergeSort fun a b => key a ≤ key b).Pairwise fun a b => key a ≠ key b :=
    List.pairwise_map.1 (((List.mergeSort_perm l _).map key).nodup_iff.2 h)
  exact (hsorted.and hdistinct).imp fun hab => String.not_le.1 fun hba =>
    hab.2 (String.le_antisymm hab.1 hba)

/-- Entries with different names, of which some are kept by their names, are the same when they are sorted
as others that are kept. -/
theorem filterMap_mergeSort {α β : Type} {l : List (String × α)} {f : String × α → Option (String × β)}
    {ks : List Contract} {g : Contract → β} (hkeys : (l.map (·.1)).Nodup)
    (hnames : (ks.map (·.name)).Nodup) (hf : ∀ a c, f a = some c → c.1 = a.1)
    (hmem : ∀ c, c ∈ l.filterMap f ↔ ∃ k ∈ ks, (k.name, g k) = c) :
    (l.mergeSort fun a b => a.1 ≤ b.1).filterMap f =
      (ks.mergeSort fun a b => a.name ≤ b.name).map fun k => (k.name, g k) := by
  have hleft : ((l.mergeSort fun a b => a.1 ≤ b.1).filterMap f).Pairwise fun a b => a.1 < b.1 := by
    refine (pairwise_mergeSort_keys (·.1) hkeys).filterMap f fun a a' haa' c hc c' hc' => ?_
    rw [hf a c hc, hf a' c' hc']
    exact haa'
  have hright : ((ks.mergeSort fun a b => a.name ≤ b.name).map
      fun k => (k.name, g k)).Pairwise fun a b => a.1 < b.1 :=
    List.pairwise_map.2 (pairwise_mergeSort_keys Contract.name hnames)
  have hnodup {l : List (String × β)} (h : l.Pairwise fun a b => a.1 < b.1) : l.Nodup := by
    refine h.imp fun {a b} hab heq => ?_
    rw [heq] at hab
    exact String.lt_irrefl _ hab
  refine List.Perm.eq_of_pairwise (fun a b _ _ hab hba => (String.lt_asymm hab hba).elim) hleft hright ?_
  refine (List.perm_ext_iff_of_nodup (hnodup hleft) (hnodup hright)).2 fun c => ?_
  have hsame : c ∈ (l.mergeSort fun a b => a.1 ≤ b.1).filterMap f ↔ c ∈ l.filterMap f :=
    ((List.mergeSort_perm l _).filterMap f).mem_iff
  rw [hsame, hmem, List.mem_map]
  simp only [List.mem_mergeSort]

/-- A contract as it is listed. -/
structure Row where
  name : String
  backing : String
  isAbstract : Bool
deriving DecidableEq, Repr

namespace Row

/-- What a build shows of a contract. -/
def cells (r : Row) : List String := [r.name, r.backing]

/-- What an inspection shows of a contract. -/
def allCells (r : Row) : List String := [r.name, r.backing, if r.isAbstract then "yes" else ""]

def ofContract (k : Contract) : Row := ⟨k.name, k.backing.fullName, k.isAbstract⟩

end Row

namespace Commanding

/-- The contracts of a module as they are listed. -/
def rows (w : World) (m : Module) : List Row :=
  (contracts w m).map fun (name, c) => ⟨name, backing w c, isAbstract w c⟩

theorem cells_rows (w : World) (m : Module) :
    (contracts w m).map (fun (name, c) => [name, backing w c]) = (rows w m).map Row.cells := by
  rw [rows, List.map_map]
  rfl

theorem allCells_rows (w : World) (m : Module) :
    (contracts w m).map (fun (name, c) => [name, backing w c, if isAbstract w c then "yes" else ""]) =
      (rows w m).map Row.allCells := by
  rw [rows, List.map_map]
  rfl

/-- The contract that an attribute of a module is, if it is one. -/
def contract? (w : World) (m : Module) (a : String × Entity) : Option (String × ClassId) :=
  match a.2.class? with
  | some c => if c.moduleName = m.name && w.derives c .modelNode then some (a.1, c) else none
  | none => none

theorem contracts_eq (w : World) (m : Module) :
    contracts w m = (m.attributes.mergeSort fun a b => a.1 ≤ b.1).filterMap (contract? w m) := rfl

theorem contract?_eq_some {w : World} {m : Module} {a : String × Entity} {c : String × ClassId} :
    contract? w m a = some c ↔ c.1 = a.1 ∧ a.2.class? = some c.2 ∧ c.2.moduleName = m.name ∧
      w.derives c.2 .modelNode = true := by
  obtain ⟨name, d⟩ := c
  rw [contract?]
  rcases a.2.class? with _ | e
  · simp
  · simp only [Bool.and_eq_true, decide_eq_true_eq, Option.ite_none_right_eq_some, Option.some.injEq,
      Prod.mk.injEq]
    constructor
    · rintro ⟨⟨hmodule, hderives⟩, rfl, rfl⟩
      exact ⟨rfl, rfl, hmodule, hderives⟩
    · rintro ⟨rfl, rfl, hmodule, hderives⟩
      exact ⟨⟨hmodule, hderives⟩, rfl, rfl⟩

end Commanding

namespace World

variable {w : World} {c : ClassId} {k : Contract}

theorem classMarkersOf_abstract
    (hmarkers : ∀ s : MarkerShape, s.onClasses = true → w.find? s.kind = some (Standard.markerClass s))
    (h : w.markersOf c = k.markers) : w.classMarkersOf c MarkerShape.modelAbstractClass.kind =
      if k.isAbstract then [Marker.stock .modelAbstractClass []] else [] := by
  have hmark : w.derives MarkerShape.modelAbstractClass.kind MarkerShape.modelAbstractClass.kind =
      true := by
    rw [derives, lineage, hmarkers .modelAbstractClass rfl]
    decide
  have hname : w.derives MarkerShape.className.kind MarkerShape.modelAbstractClass.kind = false := by
    rw [derives, lineage, hmarkers .className rfl]
    decide
  rw [classMarkersOf, h, Contract.markers]
  split_ifs
  · simp [Marker.stock, hmark, hname]
  · simp [Marker.stock, hname]

/-- A class with the markers of a contract is listed as the contract. -/
theorem row_of_markers
    (hmarkers : ∀ s : MarkerShape, s.onClasses = true → w.find? s.kind = some (Standard.markerClass s))
    (h : w.markersOf c = k.markers) :
    Commanding.backing w c = k.backing.fullName ∧ Commanding.isAbstract w c = k.isAbstract := by
  constructor
  · rw [Commanding.backing, recordedName?, classMarkersOf_contract hmarkers h]
    rfl
  · rw [Commanding.isAbstract, classMarkersOf_abstract hmarkers h]
    cases k.isAbstract <;> rfl

end World

/-- What a plan binds is told apart, but for imports of one name, which there are none of; and no class that
is imported says that it is of the module. -/
structure Blueprint.Apart (p : Blueprint) (L : Ledger) (w : World) (into : String) : Prop
    extends p.Clear L where
  bindings : ∀ β ∈ L.bindings, β.name ∉ p.aliases L
  foreign : ∀ β ∈ L.bindings, ∀ c ∈ w.imported? β.module β.name, c.moduleName ≠ into

instance (p : Blueprint) (L : Ledger) (w : World) (into : String) : Decidable (p.Apart L w into) :=
  decidable_of_iff (p.Clear L ∧ (∀ β ∈ L.bindings, β.name ∉ p.aliases L) ∧
    ∀ β ∈ L.bindings, ∀ c ∈ w.imported? β.module β.name, c.moduleName ≠ into)
    ⟨fun h => ⟨h.1, h.2.1, h.2.2⟩, fun h => ⟨h.toClear, h.bindings, h.foreign⟩⟩

/-- The bases for the contracts of a component are below the model node, and no builtin classes. -/
def Component.Grounded (w : World) (c : Component) : Prop :=
  ∀ d ∈ c.base :: c.rootBase.toList, w.derives d .modelNode = true ∧ d.moduleName ≠ "builtins"

instance (w : World) (c : Component) : Decidable (c.Grounded w) :=
  inferInstanceAs (Decidable (∀ d ∈ _, _))

namespace Builder

variable {b : Builder} {components : List Component} {path : Path} {s s' : Session} {plan : Blueprint}
  {L : Ledger} {m : Module}

/-- A plan of contracts below the model node, of which each name leads to what it was written for. -/
structure Sound (b : Builder) (components : List Component) (path : Path) (s : Session)
    (plan : Blueprint) (L : Ledger) : Prop where
  plans : b.Plans components path s plan L
  imports : s.world.Imports (Artifact.moduleName path) L
  stocked : s.world.Stocked (Artifact.moduleName path)
  tidy : plan.Tidy
  apart : plan.Apart L s.world (Artifact.moduleName path)
  grounded : ∀ c ∈ components, c.Grounded s.world

theorem Sound.based (h : b.Sound components path s plan L) {k : Contract} (hk : k ∈ plan.contracts) :
    Blueprint.Based L s.world (fun c => s.world.derives c .modelNode = true) k := by
  obtain ⟨c, hc, hworded⟩ := (h.plans.worded (sure_of_imports h.imports)).2 k hk
  obtain ⟨d, hd, hbase⟩ : ∃ d ∈ c.base :: c.rootBase.toList,
      Written s.world L d.phrase k.baseText := by
    have hwritten := hworded.base
    split_ifs at hwritten
    · exact ⟨_, List.mem_cons_self, hwritten⟩
    · rcases hroot : c.rootBase with _ | r
      · rw [hroot] at hwritten
        exact ⟨_, List.mem_cons_self, hwritten⟩
      · rw [hroot] at hwritten
        exact ⟨r, by simp, hwritten⟩
  obtain ⟨hderives, hbuiltin⟩ := h.grounded c hc d hd
  have hnone : d ≠ ClassId.noneType := by
    rintro rfl
    exact hbuiltin rfl
  have himplicit : ¬ isImplicit s.world d = true := by
    intro himplicit
    simp only [isImplicit, Bool.and_eq_true, decide_eq_true_eq] at himplicit
    exact hbuiltin himplicit.1
  have hplace : ∃ p, s.world.placeOf? (.cls d) = some p := by
    simp only [World.placeOf?]
    split_ifs <;> exact ⟨_, rfl⟩
  obtain ⟨p, hp⟩ := hplace
  rw [ClassId.phrase, if_neg hnone] at hbase
  refine ⟨d, p, hbase.settled _ List.mem_cons_self, hp, ?_, hderives⟩
  rw [hbase.text]
  simp [Phrase.text]

/-- A module of the plan was made by way of the state behind its imports. -/
theorem Sound.opening (h : b.Sound components path s plan L)
    (hborn : Born plan.source (Artifact.moduleName path) m s s') :
    ∃ classes x y, List.Forall₂ Contract.ReadAs plan.contracts classes ∧
      plan.Opening L s.world (Artifact.moduleName path) m.number x ∧ x.runAll classes = .ok y ∧
        s'.world = y.world.putModule y.module ∧ m = y.module ∧ (m.attributes.map (·.1)).Nodup := by
  have hspells := spells_of_imports h.imports
  exact Blueprint.opening_of_run (h.plans.legible hspells h.tidy) (h.plans.founded hspells.sure).nodup
    hborn.outcome

/-- The class of each contract is below the model node. -/
theorem Sound.derives (h : b.Sound components path s plan L) (hnumbered : s.Numbered)
    (hborn : Born plan.source (Artifact.moduleName path) m s s') {k : Contract}
    (hk : k ∈ plan.contracts) :
    s'.world.derives ⟨Artifact.moduleName path, k.name, m.number⟩ .modelNode = true := by
  obtain ⟨classes, x, y, hread, hopening, hrun, hworld, -, -⟩ := h.opening hborn
  have hstarted := h.plans.started h.imports hnumbered hborn.fresh
  have hfresh : ∀ k ∈ plan.contracts,
      x.world.find? ⟨Artifact.moduleName path, k.name, m.number⟩ = none := by
    intro k _
    obtain ⟨bound, hbound, hwithin⟩ := hstarted.within
    rw [hopening.world, World.opened, World.find?_putModule]
    exact hwithin.find?_beyond hbound
  have hnames : ∀ n ∈ plan.contracts.map (·.name),
      n ∉ L.bindings.map (·.name) ∧ n ∉ plan.aliases L := by
    intro n hn
    obtain ⟨k, hk, rfl⟩ := List.mem_map.1 hn
    exact h.apart.names k hk
  obtain ⟨c, i, hc, hfind, hlineage⟩ := hopening.scope.declaresAll hstarted h.stocked h.apart.bindings
    h.apart.aliases hnames h.plans.names_nodup hfresh (fun k hk => h.based hk) hread hrun k hk
  rw [World.derives, World.lineage, hworld, World.find?_putModule, hfind]
  dsimp only
  rw [hlineage, List.contains_iff_mem]
  exact List.mem_cons_of_mem _ (List.contains_iff_mem.1 hc)

/-- The contracts of the module are those of the plan, in the order of their names. -/
theorem Sound.contracts (h : b.Sound components path s plan L) (hnumbered : s.Numbered)
    (hborn : Born plan.source (Artifact.moduleName path) m s s') :
    Commanding.contracts s'.world m = (plan.contracts.mergeSort fun a b => a.name ≤ b.name).map
      fun k => (k.name, ⟨Artifact.moduleName path, k.name, m.number⟩) := by
  obtain ⟨classes, x, y, hread, hopening, hrun, -, hmodule, hkeys⟩ := h.opening hborn
  have hname : m.name = Artifact.moduleName path := Compilation.outcome_name hborn.outcome
  have hattributes : m.attributes = y.attributes := by
    rw [hmodule]
    rfl
  obtain ⟨-, -, hown⟩ := Execution.runAll_contracts hread hrun
  rw [hopening.scope.name, hopening.scope.number] at hown
  rw [Commanding.contracts_eq]
  refine filterMap_mergeSort hkeys h.plans.names_nodup
    (fun a c hc => (Commanding.contract?_eq_some.1 hc).1) fun c => ?_
  rw [List.mem_filterMap]
  constructor
  · rintro ⟨⟨n, e⟩, ha, hc⟩
    obtain ⟨hn, hclass, hinto, -⟩ := Commanding.contract?_eq_some.1 hc
    rw [hattributes] at hkeys ha
    obtain ⟨k, hk, hkn, hkc⟩ := hopening.class_of_lookup hread hrun h.apart.aliases h.apart.foreign
      (lookup_of_mem hkeys ha) hclass (hinto.trans hname)
    exact ⟨k, hk, Prod.ext (hkn.symm.trans hn.symm) hkc.symm⟩
  · rintro ⟨k, hk, rfl⟩
    refine ⟨(k.name, _), hattributes ▸ mem_of_lookup (hown k hk), ?_⟩
    exact Commanding.contract?_eq_some.2 ⟨rfl, rfl, hname.symm, h.derives hnumbered hborn hk⟩

/-- The contracts of a module that was compiled are listed as they were planned. -/
theorem Sound.rows (h : b.Sound components path s plan L) (hnumbered : s.Numbered)
    (hborn : Born plan.source (Artifact.moduleName path) m s s') :
    Commanding.rows s'.world m =
      (plan.contracts.mergeSort fun a b => a.name ≤ b.name).map Row.ofContract := by
  have hserial : 0 < m.number := Nat.zero_lt_of_lt hborn.fresh
  rw [Commanding.rows, h.contracts hnumbered hborn, List.map_map]
  refine List.map_congr_left fun k hk => ?_
  have hmarked := (h.plans.marked (spells_of_imports h.imports) h.tidy hnumbered h.stocked
    h.apart.toClear hborn (List.mem_mergeSort.1 hk)).1
  obtain ⟨hbacking, habstract⟩ := World.row_of_markers
    (h.stocked.find?_outcome hserial hborn.outcome) hmarked
  simp only [Function.comp_apply, hbacking, habstract, Row.ofContract]

end Builder

end ModelContracts
