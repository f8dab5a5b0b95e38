import ModelContracts.Proofs.Source.Basing

/-!
The classes that a rendered source declares. Its imports leave the world as it was opened, and then each
contract adds its class below its base. Of the names of the module that is made, those of the contracts
lead to these classes, and no other name leads to a class that says it is of the module, unless one was
imported.
-/

namespace ModelContracts

open Ledger

namespace Execution

variable {x y : Execution}

/-- A class that is there stays what it is while contracts are declared. -/
theorem runAll_find_some {ks : List Contract} {sts : List Statement}
    (hread : List.Forall₂ Contract.ReadAs ks sts) (h : x.runAll sts = .ok y) {d : ClassId} {i : ClassInfo}
    (hd : x.world.find? d = some i) : y.world.find? d = some i := by
  induction hread generalizing x with
  | nil =>
    cases h
    exact hd
  | @cons k s ks sts hk _ ih =>
    obtain ⟨n, l, _⟩ := hk
    unfold runAll at h
    rw [List.foldlM_cons] at h
    obtain ⟨x₁, hfirst, hrest⟩ := except_bind_ok h
    obtain ⟨c, -, hfind⟩ := runClass_find hfirst
    refine ih hrest ?_
    rw [hfind, hd]
    rfl

end Execution

/-- The class that a module has under a name for an import. -/
def World.imported? (w : World) (module name : String) : Option ClassId :=
  (w.module? module).bind fun m => (m.attributes.lookup name).bind Entity.class?

/-- What leads to a class from a module is an attribute of the module. -/
theorem World.imported?_of_attribute {w : World} {module name : String} {e : Entity} {c : ClassId}
    (h : w.attribute? (.module module) name = some e) (hc : e.class? = some c) :
    w.imported? module name = some c := by
  rw [attribute?] at h
  rw [imported?]
  rcases hm : w.module? module with _ | m
  · rw [hm] at h
    dsimp only [Option.bind_none] at h
    split_ifs at h <;> cases h <;> cases hc
  · rw [hm] at h
    rcases he : m.attributes.lookup name with _ | e'
    · rw [Option.bind_some, he] at h
      dsimp only at h
      split_ifs at h <;> cases h <;> cases hc
    · rw [Option.bind_some, he] at h
      cases h
      rw [Option.bind_some, he]
      exact hc

namespace Blueprint

variable {b : Blueprint} {L : Ledger} {w v : World} {into : String} {serial : Nat} {m : Module}
  {before ks : List Contract} {x y : Execution}

/-- The state behind the imports of a source. -/
structure Opening (b : Blueprint) (L : Ledger) (w : World) (into : String) (serial : Nat)
    (x : Execution) : Prop where
  scope : b.Scope L (w.opened into serial) into serial [] x
  world : x.world = w.opened into serial
  version : versionName ∉ L.bindings.map (·.name) → versionName ∉ b.aliases L →
    x.attributes.lookup versionName = some (.value (.text b.version))

/-- A run of a source comes by the state behind its imports, and declares the contracts there. -/
theorem opening_of_run (hlegible : b.Legible L) (hnodup : (L.bindings.map (·.name)).Nodup)
    (h : Compilation.outcome w serial b.source into = .ok (v, m)) :
    ∃ classes x y, List.Forall₂ Contract.ReadAs b.contracts classes ∧ b.Opening L w into serial x ∧
      x.runAll classes = .ok y ∧ v = y.world.putModule y.module ∧ m = y.module ∧
        (m.attributes.map (·.1)).Nodup := by
  obtain ⟨statements, y, hsource, hrun, rfl, rfl⟩ := Compilation.outcome_ok h
  have hkeys : (y.attributes.map (·.1)).Nodup := Execution.runAll_keys hrun List.nodup_nil
  obtain ⟨imports, classes, rfl, hplain, hread⟩ := ofSource_read hlegible hsource
  let opening : List Statement := [.plain 1 .nothing, .plain 2 .nothing,
    .plain 4 (.setText versionName b.version)]
  have hsplit : .plain 1 .nothing :: .plain 2 .nothing :: .plain 4 (.setText versionName b.version) ::
      (imports ++ classes) = (opening ++ imports) ++ classes := by
    simp [opening]
  rw [hsplit] at hrun
  obtain ⟨x, hbefore, hafter⟩ := Execution.runAll_append hrun
  let start : Execution := { world := w.opened into serial, name := into, number := serial }
  have himports : (start.set versionName (.value (.text b.version))).runAll imports = .ok x := hbefore
  obtain ⟨hworld, -, -, hnames⟩ := Execution.runAll_imports hplain (fun p hp => by
    obtain ⟨m, -, rfl⟩ | ⟨m, -, rfl⟩ := mem_imports.1 hp <;> trivial) himports
  refine ⟨classes, x, y, hread, ⟨scope_imports hnodup hplain hbefore, hworld, fun hbound halias => ?_⟩,
    hafter, rfl, rfl, hkeys⟩
  have hfree : ∀ p ∈ b.imports L, versionName ∉ p.binds := by
    intro p hp hbinds
    obtain ⟨m, -, rfl⟩ | ⟨m, hm, rfl⟩ := mem_imports.1 hp
    · obtain ⟨β, hβ, -, hname⟩ := mem_namesFrom.1 hbinds
      exact hbound (hname ▸ List.mem_map_of_mem hβ)
    · exact halias (List.mem_singleton.1 hbinds ▸ List.mem_map_of_mem hm)
  rw [(hnames versionName).1 hfree, Execution.lookup_set, if_pos rfl]

/-- The base of a contract is named as the ledger names a class with a place, and the class is as is
wanted. -/
def Based (L : Ledger) (w : World) (P : ClassId → Prop) (k : Contract) : Prop :=
  ∃ c p, L.Settled w (.cls c) ∧ w.placeOf? (.cls c) = some p ∧ k.baseText = L.nameOf w (.cls c) ∧ P c

/-- The classes of contracts are declared below their bases. -/
theorem Scope.declaresAll (hs : b.Scope L (w.opened into serial) into serial before x)
    (hstarted : Started L w into serial) (hstocked : w.Stocked into)
    (hbindings : ∀ β ∈ L.bindings, β.name ∉ b.aliases L)
    (hunique : ∀ m ∈ b.aliasedModules L, ∀ n ∈ b.aliasedModules L,
      moduleAlias n = moduleAlias m → n = m)
    (hnames : ∀ n ∈ (before ++ ks).map (·.name), n ∉ L.bindings.map (·.name) ∧ n ∉ b.aliases L)
    (hnodup : (ks.map (·.name)).Nodup)
    (hfresh : ∀ k ∈ ks, x.world.find? ⟨into, k.name, serial⟩ = none) {P : ClassId → Prop}
    (hbased : ∀ k ∈ ks, Based L w P k) {classes : List Statement}
    (hread : List.Forall₂ Contract.ReadAs ks classes) (h : x.runAll classes = .ok y) :
    ∀ k ∈ ks, ∃ c i, P c ∧ y.world.find? ⟨into, k.name, serial⟩ = some i ∧
      i.lineage = ⟨into, k.name, serial⟩ :: w.lineage c := by
  induction hread generalizing before x with
  | nil => exact nofun
  | @cons k st ks sts hst hrest ih =>
    unfold Execution.runAll at h
    rw [List.foldlM_cons] at h
    obtain ⟨x₁, hfirst, hsecond⟩ := except_bind_ok h
    obtain ⟨hnew, hnodup'⟩ := List.nodup_cons.1 hnodup
    obtain ⟨c, p, hm, hp, hbase, hc⟩ := hbased k List.mem_cons_self
    have hbefore : ∀ n ∈ before.map (·.name), n ∉ L.bindings.map (·.name) ∧ n ∉ b.aliases L :=
      fun n hn => hnames n (by rw [List.map_append]; exact List.mem_append_left _ hn)
    obtain ⟨i, hi, hlineage⟩ := hs.declares hstarted hstocked hbindings hunique hbefore hm hp hbase hst
      (hfresh k List.mem_cons_self) hfirst
    have hone : x.runAll [st] = .ok x₁ := by
      unfold Execution.runAll
      rw [List.foldlM_cons, hfirst]
      rfl
    have hs₁ := hs.contracts (.cons hst .nil) hone
    have hfresh₁ : ∀ j ∈ ks, x₁.world.find? ⟨into, j.name, serial⟩ = none := by
      intro j hj
      have hne : (⟨into, k.name, serial⟩ : ClassId) ≠ ⟨into, j.name, serial⟩ := by
        intro heq
        have hname : k.name = j.name := (ClassId.mk.inj heq).2.1
        exact hnew (List.mem_map.2 ⟨j, hj, hname.symm⟩)
      obtain ⟨n, l, -⟩ := hst
      obtain ⟨d, -, hfind⟩ := Execution.runClass_find hfirst
      rw [hfind, hfresh j (List.mem_cons_of_mem k hj), hs.name, hs.number, if_neg hne]
      rfl
    have hlater := ih hs₁ (by rwa [List.append_assoc]) hnodup' hfresh₁
      (fun j hj => hbased j (List.mem_cons_of_mem k hj)) hsecond
    intro j hj
    rcases List.mem_cons.1 hj with rfl | hj
    · exact ⟨c, i, hc, Execution.runAll_find_some hrest hsecond hi, hlineage⟩
    · exact hlater j hj

/-- A name leads to a class that says it is of the module only when it is the name of a contract, or the
class was imported. -/
theorem Opening.class_of_lookup (ho : b.Opening L w into serial x) {classes : List Statement}
    (hread : List.Forall₂ Contract.ReadAs b.contracts classes) (h : x.runAll classes = .ok y)
    (hunique : ∀ m ∈ b.aliasedModules L, ∀ n ∈ b.aliasedModules L,
      moduleAlias n = moduleAlias m → n = m)
    (hforeign : ∀ β ∈ L.bindings, ∀ c ∈ w.imported? β.module β.name, c.moduleName ≠ into) {n : String}
    {e : Entity} {c : ClassId} (he : y.attributes.lookup n = some e) (hc : e.class? = some c)
    (hinto : c.moduleName = into) : ∃ k ∈ b.contracts, n = k.name ∧ c = ⟨into, k.name, serial⟩ := by
  have hs := ho.scope.contracts hread h
  rw [List.nil_append] at hs
  by_cases hcontract : n ∈ b.contracts.map (·.name)
  · obtain ⟨k, hk, rfl⟩ := List.mem_map.1 hcontract
    rw [hs.declared k hk] at he
    cases he
    cases hc
    exact ⟨k, hk, rfl, rfl⟩
  by_cases halias : n ∈ b.aliases L
  · obtain ⟨m, hm, rfl⟩ := List.mem_map.1 halias
    rw [hs.aliased m hm (hunique m hm) hcontract] at he
    cases he
    cases hc
  by_cases hbound : n ∈ L.bindings.map (·.name)
  · obtain ⟨β, hβ, rfl⟩ := List.mem_map.1 hbound
    obtain ⟨e', he', hlookup⟩ := hs.bound β hβ halias hcontract
    obtain rfl : e' = e := Option.some.inj (hlookup.symm.trans he)
    have himported := World.imported?_of_attribute he' hc
    by_cases hself : β.module = into
    · rw [World.imported?, World.opened, World.module?_putModule, if_pos hself] at himported
      cases himported
    · rw [World.imported?, World.module?_opened hself, ← World.imported?] at himported
      exact (hforeign β hβ c himported hinto).elim
  by_cases hversion : n = versionName
  · subst hversion
    obtain ⟨-, hothers, -⟩ := Execution.runAll_contracts hread h
    rw [(hothers _ hcontract).1, ho.version hbound halias] at he
    cases he
    cases hc
  · rw [hs.free n hversion hbound halias hcontract] at he
    cases he

end Blueprint

end ModelContracts
