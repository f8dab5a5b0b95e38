import Mathlib.Data.List.Nodup
import ModelContracts.Proofs.Execution.Marking
import ModelContracts.Proofs.Reference.Importing
import ModelContracts.Proofs.Source.Reading

/-!
The names that a rendered source has at each of its contracts: the names that were imported, the aliases
of modules and the contracts above. An alias is bound after the imported names, and contracts after both.
What none of them binds is a name of the builtin module.
-/

namespace ModelContracts

/-- The world in which the source of a module runs: the module is there, and has no attributes. -/
def World.opened (w : World) (into : String) (serial : Nat) : World :=
  w.putModule { name := into, attributes := [], number := serial }

namespace PlainStatement

def IsImport : PlainStatement → Prop
  | .importNames .. | .importModule .. => True
  | _ => False

/-- What an import gives to a name. -/
def Gives (w : World) (name : String) (e : Entity) : PlainStatement → Prop
  | .importNames m names => name ∈ names ∧ w.attribute? (.module m) name = some e
  | .importModule m n =>
    n = name ∧ e = .module (if n = Text.firstPiece '.' m then n else m)
  | _ => False

end PlainStatement

namespace Execution

variable {x y : Execution} {line : Nat} {name : String}

theorem runAll_append {ss ts : List Statement} (h : x.runAll (ss ++ ts) = .ok y) :
    ∃ z, x.runAll ss = .ok z ∧ z.runAll ts = .ok y := by
  unfold runAll at h
  rw [List.foldlM_append] at h
  exact except_bind_ok h

/-! Running imports. -/

theorem foldlM_importName_binds {m : String} {names : List String}
    (h : names.foldlM (importName line m) x = .ok y) : y.world = x.world ∧
      ∀ name ∈ names, ∃ e, x.world.attribute? (.module m) name = some e ∧
        y.attributes.lookup name = some e := by
  induction names generalizing x with
  | nil =>
    cases h
    exact ⟨rfl, nofun⟩
  | cons n rest ih =>
    rw [List.foldlM_cons] at h
    obtain ⟨x₁, himport, hrest⟩ := except_bind_ok h
    obtain ⟨hworld, hnames⟩ := ih hrest
    unfold importName at himport
    split at himport
    next e he =>
      cases himport
      refine ⟨hworld, fun name hname => ?_⟩
      by_cases hlater : name ∈ rest
      · exact hnames name hlater
      · obtain rfl := (List.mem_cons.1 hname).resolve_right hlater
        refine ⟨e, he, ?_⟩
        rw [foldlM_importName_lookup hrest hlater, lookup_set, if_pos rfl]
    · cases himport

theorem runPlain_gives {s : PlainStatement} (h : runPlain line x s = .ok y) (hs : s.IsImport) :
    y.world = x.world ∧ y.name = x.name ∧ y.number = x.number ∧ ∀ name ∈ s.binds,
      ∃ e, s.Gives x.world name e ∧ y.attributes.lookup name = some e := by
  have hgrows := runPlain_grows h
  cases s with
  | importNames m names =>
    simp only [runPlain, runSimple, importNames] at h
    split at h
    · cases h
    · obtain ⟨hworld, hnames⟩ := foldlM_importName_binds h
      refine ⟨hworld, hgrows.name, hgrows.number, fun name hname => ?_⟩
      obtain ⟨e, he, hlookup⟩ := hnames name hname
      exact ⟨e, ⟨hname, he⟩, hlookup⟩
  | importModule m n =>
    simp only [runPlain, runSimple, importModule] at h
    split at h
    · cases h
    · cases h
      refine ⟨rfl, rfl, rfl, fun name hname => ?_⟩
      obtain rfl := List.mem_singleton.1 hname
      exact ⟨_, ⟨rfl, rfl⟩, (lookup_set ..).trans (if_pos rfl)⟩
  | _ => exact hs.elim

/-- Some imports leave the world alone, and the names that they do not bind; each name that they bind
has what one of them gives to it. -/
theorem runAll_imports {ps : List PlainStatement} {sts : List Statement}
    (hread : List.Forall₂ Statement.IsPlain ps sts) (himports : ∀ p ∈ ps, p.IsImport)
    (h : x.runAll sts = .ok y) : y.world = x.world ∧ y.name = x.name ∧ y.number = x.number ∧
      ∀ name, ((∀ p ∈ ps, name ∉ p.binds) → y.attributes.lookup name = x.attributes.lookup name) ∧
        ((∃ p ∈ ps, name ∈ p.binds) → ∃ p ∈ ps, name ∈ p.binds ∧
          ∃ e, p.Gives x.world name e ∧ y.attributes.lookup name = some e) := by
  induction hread generalizing x with
  | nil =>
    cases h
    exact ⟨rfl, rfl, rfl, fun name => ⟨fun _ => rfl, fun ⟨_, hp, _⟩ => by cases hp⟩⟩
  | @cons p s ps sts hp _ ih =>
    obtain ⟨n, rfl⟩ := hp
    unfold runAll at h
    rw [List.foldlM_cons] at h
    obtain ⟨x₁, hfirst, hrest⟩ := except_bind_ok h
    have himport := himports p List.mem_cons_self
    obtain ⟨hworld₁, hname₁, hnumber₁, hgives⟩ := runPlain_gives hfirst himport
    obtain ⟨hworld, hname, hnumber, hnames⟩ := ih (fun q hq => himports q (List.mem_cons_of_mem p hq)) hrest
    refine ⟨hworld.trans hworld₁, hname.trans hname₁, hnumber.trans hnumber₁, fun name =>
      ⟨fun hfree => ?_, fun hbound => ?_⟩⟩
    · rw [(hnames name).1 fun q hq => hfree q (List.mem_cons_of_mem p hq)]
      exact runPlain_lookup hfirst (hfree p List.mem_cons_self)
    · by_cases hlater : ∃ q ∈ ps, name ∈ q.binds
      · obtain ⟨q, hq, hbinds, e, he, hlookup⟩ := (hnames name).2 hlater
        exact ⟨q, List.mem_cons_of_mem p hq, hbinds, e, hworld₁ ▸ he, hlookup⟩
      · have hnot : ∀ q ∈ ps, name ∉ q.binds := fun q hq hbinds => hlater ⟨q, hq, hbinds⟩
        obtain ⟨q, hq, hbinds⟩ := hbound
        obtain rfl : q = p := by
          rcases List.mem_cons.1 hq with rfl | hq
          · rfl
          · exact (hnot q hq hbinds).elim
        obtain ⟨e, he, hlookup⟩ := hgives name hbinds
        exact ⟨q, hq, hbinds, e, he, by rw [(hnames name).1 hnot, hlookup]⟩

/-! Running contracts. -/

theorem runClass_lookup_self {decorators : List Decorator} {body : List Definition} {n : String}
    {base : Option String} (h : runClass decorators line n base body x = .ok y) :
    y.attributes.lookup n = some (.cls ⟨x.name, n, x.number⟩) := by
  obtain ⟨markers, -, h₁⟩ := except_bind_ok h
  obtain ⟨c, -, h₂⟩ := except_bind_ok h₁
  obtain ⟨_, -, h₃⟩ := except_bind_ok h₂
  cases h₃
  exact (lookup_set { x with world := _ } n _).trans (if_pos rfl)

/-- Some contracts leave the names alone that they do not have, with the markers on what goes by these
names, and each of them has its class. -/
theorem runAll_contracts {ks : List Contract} {sts : List Statement}
    (hread : List.Forall₂ Contract.ReadAs ks sts) (h : x.runAll sts = .ok y) : Grows x y ∧
      (∀ name, name ∉ ks.map (·.name) → y.attributes.lookup name = x.attributes.lookup name ∧
        y.world.markersOf ⟨x.name, name, x.number⟩ = x.world.markersOf ⟨x.name, name, x.number⟩) ∧
        ∀ k ∈ ks, y.attributes.lookup k.name = some (.cls ⟨x.name, k.name, x.number⟩) := by
  induction hread generalizing x with
  | nil =>
    cases h
    exact ⟨.refl _, fun _ _ => ⟨rfl, rfl⟩, nofun⟩
  | @cons k s ks sts hk _ ih =>
    obtain ⟨n, l, _⟩ := hk
    unfold runAll at h
    rw [List.foldlM_cons] at h
    obtain ⟨x₁, hfirst, hrest⟩ := except_bind_ok h
    obtain ⟨hgrows, hothers, hown⟩ := ih hrest
    have hfirstGrows := run_grows hfirst
    rw [hfirstGrows.name, hfirstGrows.number] at hothers
    refine ⟨hfirstGrows.trans hgrows, fun name hname => ?_, fun j hj => ?_⟩
    · rw [List.map_cons, List.mem_cons, not_or] at hname
      obtain ⟨hlookup, hmarkers⟩ := hothers name hname.2
      obtain ⟨ms, -, hmarked⟩ := runClass_markers hfirst
      have hne : (⟨x.name, name, x.number⟩ : ClassId) ≠ ⟨x.name, k.name, x.number⟩ := by
        intro heq
        cases heq
        exact hname.1 rfl
      rw [hlookup, hmarkers, hmarked, if_neg hne]
      exact ⟨runClass_lookup hfirst hname.1, rfl⟩
    · by_cases hlater : j.name ∈ ks.map (·.name)
      · obtain ⟨i, hi, hname⟩ := List.mem_map.1 hlater
        rw [← hname, hown i hi, hfirstGrows.name, hfirstGrows.number]
      · rw [(hothers j.name hlater).1]
        rcases List.mem_cons.1 hj with rfl | hj
        · exact runClass_lookup_self hfirst
        · exact (hlater (List.mem_map_of_mem hj)).elim

end Execution

/-! The names at a contract. -/

namespace Blueprint

/-- The modules that a source imports under an alias. -/
def aliasedModules (b : Blueprint) (L : Ledger) : List String :=
  Text.sorted L.aliased ++ if b.contracts.any (·.hidesDecorator) then ["builtins"] else []

def aliases (b : Blueprint) (L : Ledger) : List String := (b.aliasedModules L).map moduleAlias

variable {b : Blueprint} {L : Ledger}

theorem imports_eq : b.imports L =
    L.importedModules.map (fun m => .importNames m (L.namesFrom m)) ++
      (b.aliasedModules L).map fun m => .importModule m (moduleAlias m) := by
  have halias : moduleAlias "builtins" = builtinsAlias := by decide +kernel
  unfold imports aliasedModules
  split_ifs
  · rw [List.map_append, List.map_singleton, halias, Ledger.imports, List.append_assoc]
  · rw [List.append_nil, List.append_nil, Ledger.imports]

theorem mem_imports {p : PlainStatement} : p ∈ b.imports L ↔
    (∃ m ∈ L.importedModules, p = .importNames m (L.namesFrom m)) ∨
      ∃ m ∈ b.aliasedModules L, p = .importModule m (moduleAlias m) := by
  rw [imports_eq]
  simp [eq_comm]

/-- What the names mean to a source that has run its imports and some of its contracts, when it runs in
the world `v`. -/
structure Scope (b : Blueprint) (L : Ledger) (v : World) (into : String) (serial : Nat)
    (before : List Contract) (x : Execution) : Prop where
  name : x.name = into
  number : x.number = serial
  grown : World.Grown into serial v x.world
  bound : ∀ β ∈ L.bindings, β.name ∉ b.aliases L → β.name ∉ before.map (·.name) →
    ∃ e, v.attribute? (.module β.module) β.name = some e ∧ x.attributes.lookup β.name = some e
  aliased : ∀ m ∈ b.aliasedModules L,
    (∀ n ∈ b.aliasedModules L, moduleAlias n = moduleAlias m → n = m) →
      moduleAlias m ∉ before.map (·.name) → x.attributes.lookup (moduleAlias m) = some (.module m)
  declared : ∀ k ∈ before, x.attributes.lookup k.name = some (.cls ⟨into, k.name, serial⟩)
  free : ∀ n, n ≠ versionName → n ∉ L.bindings.map (·.name) → n ∉ b.aliases L →
    n ∉ before.map (·.name) → x.attributes.lookup n = none
  unmarked : ∀ n, n ∉ before.map (·.name) →
    x.world.markersOf ⟨into, n, serial⟩ = v.markersOf ⟨into, n, serial⟩

/-- An alias is longer than the first part of the name of its module. -/
theorem moduleAlias_ne_firstPiece (m : String) : moduleAlias m ≠ Text.firstPiece '.' m := by
  intro h
  have hlength := congrArg (fun s : String => s.toList.length) h
  have hshort := (List.takeWhile_prefix (l := m.toList) (· ≠ '.')).length_le
  simp only [moduleAlias, Text.firstPiece, String.toList_append, String.toList_ofList,
    List.length_append, List.length_map] at hlength
  simp at hlength hshort
  omega

theorem forall₂_append {α β : Type} {R : α → β → Prop} {as bs : List α} {cs : List β}
    (h : List.Forall₂ R (as ++ bs) cs) :
    ∃ cs₁ cs₂, cs = cs₁ ++ cs₂ ∧ List.Forall₂ R as cs₁ ∧ List.Forall₂ R bs cs₂ := by
  induction as generalizing cs with
  | nil => exact ⟨[], cs, rfl, .nil, h⟩
  | cons a as ih =>
    cases h with
    | cons hfirst hrest =>
      obtain ⟨cs₁, cs₂, rfl, h₁, h₂⟩ := ih hrest
      exact ⟨_ :: cs₁, cs₂, rfl, .cons hfirst h₁, h₂⟩

open Execution in
/-- The scope behind the imports. -/
theorem scope_imports {v : World} {into : String} {number : Nat} {x : Execution}
    {imports : List Statement} (hnodup : (L.bindings.map (·.name)).Nodup)
    (hread : List.Forall₂ Statement.IsPlain (b.imports L) imports)
    (h : runAll { world := v, name := into, number := number } (.plain 1 .nothing ::
      .plain 2 .nothing :: .plain 4 (.setText versionName b.version) :: imports) = .ok x) :
    b.Scope L v into number [] x := by
  have hrun : runAll (set { world := v, name := into, number := number } versionName
      (.value (.text b.version))) imports = .ok x := h
  rw [imports_eq] at hread
  obtain ⟨named, whole, rfl, hnamed, hwhole⟩ := forall₂_append hread
  obtain ⟨x₁, hfirst, hsecond⟩ := runAll_append hrun
  obtain ⟨hworld₁, hname₁, hnumber₁, hnames₁⟩ := runAll_imports hnamed
    (fun p hp => by obtain ⟨m, -, rfl⟩ := List.mem_map.1 hp; trivial) hfirst
  obtain ⟨hworld₂, hname₂, hnumber₂, hnames₂⟩ := runAll_imports hwhole
    (fun p hp => by obtain ⟨m, -, rfl⟩ := List.mem_map.1 hp; trivial) hsecond
  have hworld : x.world = v := hworld₂.trans hworld₁
  -- No alias is bound by the imports of names, and no imported name by those of modules.
  have hwholeFree : ∀ n, n ∉ b.aliases L →
      ∀ p ∈ (b.aliasedModules L).map fun m => PlainStatement.importModule m (moduleAlias m),
        n ∉ p.binds := by
    intro n hn p hp hbinds
    obtain ⟨m, hm, rfl⟩ := List.mem_map.1 hp
    exact hn (List.mem_singleton.1 hbinds ▸ List.mem_map_of_mem hm)
  have hnamedFree : ∀ n, n ∉ L.bindings.map (·.name) →
      ∀ p ∈ L.importedModules.map fun m => PlainStatement.importNames m (L.namesFrom m),
        n ∉ p.binds := by
    intro n hn p hp hbinds
    obtain ⟨m, -, rfl⟩ := List.mem_map.1 hp
    obtain ⟨β, hβ, -, rfl⟩ := Ledger.mem_namesFrom.1 hbinds
    exact hn (List.mem_map_of_mem hβ)
  refine ⟨hname₂.trans hname₁, hnumber₂.trans hnumber₁, hworld ▸ .refl _, ?_, ?_, nofun, ?_,
    fun _ _ => by rw [hworld]⟩
  · intro β hβ halias _
    obtain ⟨p, hp, hbinds, e, he, hlookup⟩ := (hnames₁ β.name).2 ⟨_, List.mem_map_of_mem
      (Ledger.mem_importedModules.2 ⟨β, hβ, rfl⟩), Ledger.mem_namesFrom.2 ⟨β, hβ, rfl, rfl⟩⟩
    obtain ⟨m, -, rfl⟩ := List.mem_map.1 hp
    obtain ⟨γ, hγ, rfl, hname⟩ := Ledger.mem_namesFrom.1 hbinds
    obtain rfl : γ = β := List.inj_on_of_nodup_map hnodup hγ hβ hname
    exact ⟨e, he.2, by rw [(hnames₂ γ.name).1 (hwholeFree _ halias), hlookup]⟩
  · intro m hm hunique _
    obtain ⟨p, hp, -, e, he, hlookup⟩ := (hnames₂ (moduleAlias m)).2
      ⟨_, List.mem_map_of_mem hm, List.mem_singleton.2 rfl⟩
    obtain ⟨n, hn, rfl⟩ := List.mem_map.1 hp
    obtain ⟨hname, rfl⟩ := he
    obtain rfl := hunique n hn hname
    rw [hlookup, if_neg (moduleAlias_ne_firstPiece n)]
  · intro n hversion hbound halias _
    rw [(hnames₂ n).1 (hwholeFree n halias), (hnames₁ n).1 (hnamedFree n hbound),
      lookup_set_of_ne _ hversion]
    rfl

open Execution in
/-- The scope behind more contracts. -/
theorem Scope.contracts {v : World} {into : String} {number : Nat} {x y : Execution}
    {before ks : List Contract} {classes : List Statement} (hscope : b.Scope L v into number before x)
    (hread : List.Forall₂ Contract.ReadAs ks classes) (h : x.runAll classes = .ok y) :
    b.Scope L v into number (before ++ ks) y := by
  obtain ⟨hgrows, hothers, hown⟩ := runAll_contracts hread h
  have hfree {n : String} (hn : n ∉ (before ++ ks).map (·.name)) :
      n ∉ before.map (·.name) ∧ n ∉ ks.map (·.name) := by
    rwa [List.map_append, List.mem_append, not_or] at hn
  have hworld : World.Grown into number x.world y.world := by
    rw [← hscope.name, ← hscope.number]
    exact hgrows.world
  rw [hscope.name, hscope.number] at hown hothers
  constructor
  case name => exact hgrows.name.trans hscope.name
  case number => exact hgrows.number.trans hscope.number
  case grown => exact hscope.grown.trans hworld
  case bound =>
    intro β hβ halias hbefore
    obtain ⟨e, he, hlookup⟩ := hscope.bound β hβ halias (hfree hbefore).1
    exact ⟨e, he, (hothers _ (hfree hbefore).2).1.trans hlookup⟩
  case aliased =>
    intro m hm hunique hbefore
    exact (hothers _ (hfree hbefore).2).1.trans (hscope.aliased m hm hunique (hfree hbefore).1)
  case declared =>
    intro k hk
    by_cases hlater : k.name ∈ ks.map (·.name)
    · obtain ⟨j, hj, hname⟩ := List.mem_map.1 hlater
      rw [← hname, hown j hj]
    · rw [(hothers _ hlater).1]
      rcases List.mem_append.1 hk with hk | hk
      · exact hscope.declared k hk
      · exact (hlater (List.mem_map_of_mem hk)).elim
  case free =>
    intro n hversion hbound halias hbefore
    have hbefore' := hscope.free n hversion hbound halias (hfree hbefore).1
    exact (hothers n (hfree hbefore).2).1.trans hbefore'
  case unmarked =>
    intro n hbefore
    exact (hothers n (hfree hbefore).2).2.trans (hscope.unmarked n (hfree hbefore).1)

/-- A run of a source comes by every one of its contracts, and has the scope there. -/
theorem scope_of_run {w v : World} {into : String} {serial : Nat} {m : Module}
    {before after : List Contract} (hlegible : b.Legible L) (hnodup : (L.bindings.map (·.name)).Nodup)
    (hcontracts : b.contracts = before ++ after)
    (h : Compilation.outcome w serial b.source into = .ok (v, m)) :
    ∃ statements classes x y, Statement.ofSource b.source = .ok (statements ++ classes) ∧
      List.Forall₂ Contract.ReadAs after classes ∧
      Execution.runAll { world := w.opened into serial, name := into, number := serial }
        statements = .ok x ∧ x.runAll classes = .ok y ∧ v = y.world.putModule y.module ∧
      m = y.module ∧ b.Scope L (w.opened into serial) into serial before x := by
  obtain ⟨statements, y, hsource, hrun, hv, hm⟩ := Compilation.outcome_ok h
  obtain ⟨imports, classes, rfl, hplain, hread⟩ := ofSource_read hlegible hsource
  rw [hcontracts] at hread
  obtain ⟨above, below, rfl, habove, hbelow⟩ := forall₂_append hread
  let opening : List Statement := [.plain 1 .nothing, .plain 2 .nothing,
    .plain 4 (.setText versionName b.version)]
  have hsplit : .plain 1 .nothing :: .plain 2 .nothing :: .plain 4 (.setText versionName b.version) ::
      (imports ++ (above ++ below)) = ((opening ++ imports) ++ above) ++ below := by
    simp [opening]
  rw [hsplit] at hsource hrun
  obtain ⟨x, hbefore, hafter⟩ := Execution.runAll_append hrun
  obtain ⟨x₁, himports, habove'⟩ := Execution.runAll_append hbefore
  have hscope := (scope_imports hnodup hplain himports).contracts habove habove'
  exact ⟨_, below, x, y, hsource, hbelow, hbefore, hafter, hv, hm, hscope⟩

end Blueprint

end ModelContracts
