import ModelContracts.Proofs.Execution.Declaring
import ModelContracts.Proofs.Source.Decorating

/-!
The bases of contracts. Where the names of contracts, of imports and of aliases are told apart, the name of
a class that can be imported leads to the class, whether it is bound or qualified. So the class of a
contract is declared below the class that was meant as its base.
-/

namespace ModelContracts

open Ledger

namespace World

variable {w : World}

theorem inner?_within {bound : Nat} (hw : w.Within bound) {names : List String} {c d : ClassId}
    (hd : d.generation ≤ bound) (h : w.inner? d names = some c) : c.generation ≤ bound := by
  induction names generalizing d with
  | nil =>
    cases h
    exact hd
  | cons n rest ih =>
    obtain ⟨k, hk, hrest⟩ := Option.bind_eq_some_iff.1 h
    obtain ⟨e, he, hclass⟩ := Option.bind_eq_some_iff.1 hk
    exact ih (classAttribute?_within hw hd he hclass) hrest

end World

namespace Blueprint

variable {b : Blueprint} {L : Ledger} {w : World} {into : String} {serial : Nat}
  {before : List Contract} {x y : Execution}

namespace Scope

/-- The name of a class that can be imported leads to the class. -/
theorem resolve_class (hs : b.Scope L (w.opened into serial) into serial before x)
    (hstarted : Started L w into serial) (hstocked : w.Stocked into)
    (hbindings : ∀ β ∈ L.bindings, β.name ∉ b.aliases L)
    (hunique : ∀ m ∈ b.aliasedModules L, ∀ n ∈ b.aliasedModules L,
      moduleAlias n = moduleAlias m → n = m)
    (hbefore : ∀ n ∈ before.map (·.name), n ∉ L.bindings.map (·.name) ∧ n ∉ b.aliases L) {c : ClassId}
    {p : Place} (hm : L.Settled w (.cls c)) (hp : w.placeOf? (.cls c) = some p) (line : Nat) :
    x.resolve line (L.nameOf w (.cls c)) = .ok (.cls c) := by
  have himports := hstarted.imports
  have himportable := himports.classes c hm.met
  obtain ⟨hmodule, hpath, d, hfound⟩ := himportable.place hp
  obtain ⟨k, e, hk, he, hd⟩ := hfound.held
  have hdirect {m : Module} {name top : String} {e' : Entity} (hm : w.module? name = some m)
      (he' : m.attributes.lookup top = some e') (hd' : e'.class? = some d) : e' = .cls d :=
    Entity.eq_of_isDirect (hstocked.direct name m hm _ (mem_of_lookup he')) hd'
  have hwalk : x.walk line (.cls d) (Text.split '.' p.path).tail = .ok (.cls c) := by
    obtain ⟨bound, hw, hsame⟩ := hs.sameClasses hstarted
    refine Execution.walk_classes line ?_
    rw [hsame.inner? hw (World.class_within hw hk he hd)]
    exact hfound.inner
  have hnames := hm.names p hp
  generalize L.nameOf w (.cls c) = s at hnames ⊢
  cases hnames with
  | @bound β hb ha =>
    have hmem : β ∈ L.bindings := List.mem_of_find?_eq_some hb
    have hname : β.name = p.top := by simpa using List.find?_some hb
    have hfree : p.top ∉ before.map (·.name) := fun h =>
      (hbefore _ h).1 (hname ▸ List.mem_map_of_mem hmem)
    obtain ⟨-, -, e', he', hlookup⟩ := hs.lookup?_bound hb (hname ▸ hbindings β hmem) hfree
    obtain ⟨houtside, k', e'', hk', he'', hd'⟩ :=
      hstarted.founded.module_of_class himports hmem (ha.trans hfound.anchor)
    rw [hname] at he''
    rw [World.attribute?_opened houtside hk' he''] at he'
    obtain rfl : e'' = e' := Option.some.inj he'
    obtain rfl := hdirect hk' he'' hd'
    rw [hfound.top] at hlookup
    exact (Execution.resolve_first (hpath ▸ himportable.named) hlookup line).trans hwalk
  | qualified _ hmodules =>
    have haliased : p.module ∈ b.aliasedModules L :=
      List.mem_append_left _ (Ledger.mem_sorted.2 hmodules)
    have hfree : moduleAlias p.module ∉ before.map (·.name) := fun h =>
      (hbefore _ h).2 (List.mem_map_of_mem haliased)
    have hlookup := hs.aliased _ haliased (hunique _ haliased) hfree
    have hattribute : x.world.attribute? (.module p.module) p.top = some (.cls d) := by
      rw [World.attribute?_module_grown hs.grown,
        World.attribute?_opened (hmodule ▸ himportable.outside) hk he, hdirect hk he hd]
    rw [Execution.resolve_qualified hlookup, Text.split_eq, ← hfound.top, Execution.walk, hattribute]
    exact hwalk

/-- The class of a contract is declared below the class that was meant as its base. -/
theorem declares (hs : b.Scope L (w.opened into serial) into serial before x)
    (hstarted : Started L w into serial) (hstocked : w.Stocked into)
    (hbindings : ∀ β ∈ L.bindings, β.name ∉ b.aliases L)
    (hunique : ∀ m ∈ b.aliasedModules L, ∀ n ∈ b.aliasedModules L,
      moduleAlias n = moduleAlias m → n = m)
    (hbefore : ∀ n ∈ before.map (·.name), n ∉ L.bindings.map (·.name) ∧ n ∉ b.aliases L) {c : ClassId}
    {p : Place} (hm : L.Settled w (.cls c)) (hp : w.placeOf? (.cls c) = some p) {k : Contract}
    {st : Statement} (hbase : k.baseText = L.nameOf w (.cls c)) (hread : k.ReadAs st)
    (hfresh : x.world.find? ⟨into, k.name, serial⟩ = none) (hrun : x.run st = .ok y) :
    ∃ i, y.world.find? ⟨into, k.name, serial⟩ = some i ∧
      i.lineage = ⟨into, k.name, serial⟩ :: w.lineage c := by
  obtain ⟨n, line, -⟩ := hread
  obtain ⟨d, hd, hfind⟩ := Execution.runClass_find hrun
  have hresolve := hs.resolve_class hstarted hstocked hbindings hunique hbefore hm hp line
  obtain rfl : c = d := by
    simp only [Execution.baseClass, hbase, hresolve, Bind.bind, Except.bind] at hd
    split_ifs at hd
    exact Except.ok.inj hd
  have hsame : x.world.lineage c = w.lineage c := by
    obtain ⟨bound, hw, hsame⟩ := hs.sameClasses hstarted
    obtain ⟨m, e, d, hmodule, he, hd, hinner⟩ := (hstarted.imports.classes c hm.met).found
    exact hsame.lineage (World.inner?_within hw (World.class_within hw hmodule he hd) hinner)
  rw [hfind, hfresh, hs.name, hs.number, if_pos rfl, hsame]
  exact ⟨_, rfl, rfl⟩

end Scope

end Blueprint

end ModelContracts
