import ModelContracts.Proofs.Source.Scope

/-!
What the names in a rendered source lead to. A name that a ledger gives leads to what it was given for,
at every contract of the source, unless something else has taken its first part: an alias or a contract
above, and for a builtin name also an import.
-/

namespace ModelContracts

open Ledger

/-- What a mention stands for. -/
def World.Stands (v : World) : Mention → Entity → Prop
  | .cls c, e => e.class? = some c
  | .form n, e => v.attribute? (.module "typing") n = some e
  | .builtin n, e => v.attribute? (.module "builtins") n = some e

/-- A mention that is named by itself, and not through the alias of its module. -/
def Ledger.Unqualified (w : World) (L : Ledger) (m : Mention) : Prop :=
  ∀ p, w.placeOf? m = some p → L.admits p.top p.anchor = true

instance (w : World) (L : Ledger) (m : Mention) : Decidable (L.Unqualified w m) :=
  decidable_of_iff (((w.placeOf? m).all fun p => L.admits p.top p.anchor) = true)
    (by rw [Ledger.Unqualified, Option.all_eq_true])

namespace Ledger

variable {w : World} {into : String} {L : Ledger} {m : Mention} {p : Place}

theorem legible_of_spells (h : w.Spells L) (hfounded : L.Founded w) : L.Legible where
  bindings β hβ := by
    obtain ⟨m, p, hp, hm, rfl⟩ := hfounded.made β hβ
    have hplain := Met.plain h hm hp
    exact ⟨hplain.top, hplain.module, hplain.present⟩
  aliased module hmodule := by
    obtain ⟨m, p, hp, hm, rfl⟩ := hfounded.aliased module hmodule
    exact (Met.plain h hm hp).module

/-- The names that a ledger gives are not taken apart. -/
theorem plain_nameOf (h : w.Spells L) (hm : L.Settled w m) : Text.Plain (L.nameOf w m) := by
  have hnames := hm.names
  rcases hp : w.placeOf? m with _ | p
  · have hown : L.nameOf w m = m.ownName := by rw [nameOf, hp]
    rw [hown]
    cases m with
    | cls c => exact h.own c hm.met hp
    | form n => cases hp
    | builtin n =>
      have hplain : ∀ n ∈ builtinNames, Text.Plain n := by decide
      exact hplain n hm.met
  · have hpath := (Met.plain h hm.met hp).path
    have hname := hnames p hp
    generalize L.nameOf w m = s at hname ⊢
    cases hname with
    | bound => exact hpath
    | qualified =>
      have hdot : ∀ c ∈ ".".toList, Text.isMark c = false := by decide
      exact ((Text.plain_moduleAlias _).append hdot).append hpath.marks

/-- A name that is not qualified is the path of the place, and its first part is bound. -/
theorem Settled.bound (hm : L.Settled w m) (hp : w.placeOf? m = some p)
    (hunqualified : L.Unqualified w m) :
    L.nameOf w m = p.path ∧ ∃ β, L.binding? p.top = some β ∧ β.anchor = p.anchor := by
  have hnames := hm.names p hp
  have hadmits := hunqualified p hp
  generalize L.nameOf w m = s at hnames ⊢
  cases hnames with
  | bound hb ha => exact ⟨rfl, _, hb, ha⟩
  | qualified hn =>
    rw [hadmits] at hn
    cases hn

/-- What is bound for a mention is an attribute of a module that has the same anchor. -/
theorem Founded.module_of_class (hfounded : L.Founded w) (h : w.Imports into L) {β : Binding}
    (hβ : β ∈ L.bindings) {d : ClassId} (ha : β.anchor = .cls d) : β.module ≠ into ∧
      ∃ k e, w.module? β.module = some k ∧ k.attributes.lookup β.name = some e ∧
        e.class? = some d := by
  obtain ⟨m, p, hp, hm, rfl⟩ := hfounded.made β hβ
  exact (mentionable_of_imports h hm).held hp ha

theorem Founded.module_of_form (hfounded : L.Founded w) (h : w.Imports into L) {β : Binding}
    (hβ : β ∈ L.bindings) {n : String} (ha : β.anchor = .form n) : β.module = "typing" := by
  obtain ⟨m, p, hp, hm, rfl⟩ := hfounded.made β hβ
  exact (mentionable_of_imports h hm).typing hp ha

end Ledger

theorem World.class_within {w : World} {bound : Nat} (hw : w.Within bound) {name top : String}
    {k : Module} {e : Entity} {d : ClassId} (hk : w.module? name = some k)
    (he : k.attributes.lookup top = some e) (hd : e.class? = some d) : d.generation ≤ bound := by
  refine hw.attributes name k hk (top, e) (mem_of_lookup he) d ?_
  unfold Entity.class? at hd
  split at hd <;> cases hd
  · exact List.mem_singleton.2 rfl
  · simp [Entity.classes, Value.classes]

/-- A source of importable classes is run under a number that no class has. -/
structure Blueprint.Started (L : Ledger) (w : World) (into : String) (serial : Nat) : Prop where
  imports : w.Imports into L
  founded : L.Founded w
  within : ∃ bound, bound < serial ∧ w.Within bound

namespace World

variable {w : World} {into : String} {serial : Nat}

theorem module?_opened {name : String} (h : name ≠ into) :
    (w.opened into serial).module? name = w.module? name := by
  rw [opened, module?_putModule, if_neg h]

theorem attribute?_opened {name top : String} {k : Module} {e : Entity} (h : name ≠ into)
    (hk : w.module? name = some k) (he : k.attributes.lookup top = some e) :
    (w.opened into serial).attribute? (.module name) top = some e := by
  rw [attribute?, module?_opened h, hk, Option.bind_some, he]

end World

namespace Blueprint.Scope

variable {b : Blueprint} {L : Ledger} {w : World} {into : String} {serial : Nat}
  {before : List Contract} {x : Execution} {m : Mention} {line : Nat}

/-- The classes from before the source is run are the same in the world that it has come to. -/
theorem sameClasses (hs : b.Scope L (w.opened into serial) into serial before x)
    (hstarted : Started L w into serial) :
    ∃ bound, w.Within bound ∧ World.SameClasses bound w x.world := by
  obtain ⟨bound, hbound, hw⟩ := hstarted.within
  exact ⟨bound, hw, (w.sameClasses_putModule _).trans (hs.grown.sameClasses hbound)⟩

/-- From a class the names lead where they lead to in the world before the source is run. -/
theorem walk (hs : b.Scope L (w.opened into serial) into serial before x)
    (hstarted : Started L w into serial) {name top : String} {k : Module} {e : Entity} {c d : ClassId}
    (hk : w.module? name = some k) (he : k.attributes.lookup top = some e) (hd : e.class? = some d)
    {names : List String} (h : w.inner? d names = some c) (line : Nat) {e' : Entity}
    (he' : e'.class? = some d) : ∃ e'', x.walk line e' names = .ok e'' ∧ e''.class? = some c := by
  obtain ⟨bound, hw, hsame⟩ := hs.sameClasses hstarted
  refine Execution.walk_inner line he' ?_
  rw [hsame.inner? hw (World.class_within hw hk he hd)]
  exact h

/-- A class that can be imported is found from what has the first part of its name. -/
theorem resolve_importable (hs : b.Scope L (w.opened into serial) into serial before x)
    (hstarted : Started L w into serial) {c d : ClassId} (himportable : w.Importable into c)
    (hd : w.inner? d (Text.split '.' c.qualName).tail = some c) {k : Module} {e e' : Entity}
    {name top : String} (hk : w.module? name = some k) (he : k.attributes.lookup top = some e)
    (hclass : e.class? = some d) (line : Nat)
    (hlookup : x.lookup? (Text.firstPiece '.' c.qualName) = some e') (he' : e'.class? = some d) :
    ∃ e'', x.resolve line c.qualName = .ok e'' ∧ e''.class? = some c := by
  obtain ⟨e'', hwalk, hfinal⟩ := hs.walk hstarted hk he hclass hd line he'
  exact ⟨e'', (Execution.resolve_first himportable.named hlookup line).trans hwalk, hfinal⟩

/-- The name of a contract above leads to its class, whatever else has the name. -/
theorem resolve_contract (hs : b.Scope L (w.opened into serial) into serial before x) {k : Contract}
    (hk : k ∈ before) (hnamed : k.name ≠ "None") (hone : Text.split '.' k.name = [k.name])
    (line : Nat) : x.resolve line k.name = .ok (.cls ⟨into, k.name, serial⟩) := by
  have hlookup : x.lookup? k.name = some (.cls ⟨into, k.name, serial⟩) := by
    rw [Execution.lookup?, hs.declared k hk]
  exact Execution.resolve_undotted hnamed hone hlookup line

/-- A name that is not bound leads to the builtin of the name. -/
theorem lookup?_free (hs : b.Scope L (w.opened into serial) into serial before x) {n : String}
    (h : x.attributes.lookup n = none) :
    x.lookup? n = (w.opened into serial).attribute? (.module "builtins") n := by
  rw [Execution.lookup?, h]
  exact World.attribute?_module_grown hs.grown "builtins" n

end Blueprint.Scope

namespace Blueprint

/-- The first part of the name of a mention is taken by something else: by an alias or a contract above,
and for a builtin name also by an import or the version. -/
def Captured (b : Blueprint) (L : Ledger) (w : World) (before : List Contract) (m : Mention) : Prop :=
  let first := Text.firstPiece '.' (L.nameOf w m)
  first ∈ b.aliases L ∨ first ∈ before.map (·.name) ∨
    w.placeOf? m = none ∧ (first ∈ L.bindings.map (·.name) ∨ first = versionName)

instance (b : Blueprint) (L : Ledger) (w : World) (before : List Contract) (m : Mention) :
    Decidable (b.Captured L w before m) :=
  decidable_of_iff (Text.firstPiece '.' (L.nameOf w m) ∈ b.aliases L ∨
    Text.firstPiece '.' (L.nameOf w m) ∈ before.map (·.name) ∨ (w.placeOf? m).isNone = true ∧
      (Text.firstPiece '.' (L.nameOf w m) ∈ L.bindings.map (·.name) ∨
        Text.firstPiece '.' (L.nameOf w m) = versionName))
    (by rw [Captured, Option.isNone_iff_eq_none])

namespace Scope

variable {b : Blueprint} {L : Ledger} {w : World} {into : String} {serial : Nat}
  {before : List Contract} {x : Execution} {m : Mention}

/-- What is bound for a mention is looked up under the first part of its name. -/
theorem lookup?_bound (hs : b.Scope L (w.opened into serial) into serial before x) {β : Binding}
    {name : String} (hβ : L.binding? name = some β) (halias : name ∉ b.aliases L)
    (hbefore : name ∉ before.map (·.name)) : β ∈ L.bindings ∧ β.name = name ∧
      ∃ e, (w.opened into serial).attribute? (.module β.module) name = some e ∧
        x.lookup? name = some e := by
  have hmem : β ∈ L.bindings := List.mem_of_find?_eq_some hβ
  have hname : β.name = name := by simpa using List.find?_some hβ
  obtain ⟨e, he, hlookup⟩ := hs.bound β hmem (by rwa [hname]) (by rwa [hname])
  rw [hname] at he hlookup
  exact ⟨hmem, hname, e, he, by rw [Execution.lookup?, hlookup]⟩

/-- What has no place goes by its own name, which leads to it where nothing binds the first part. -/
theorem resolve_unplaced (hs : b.Scope L (w.opened into serial) into serial before x)
    (hstarted : Started L w into serial) (hm : L.Settled w m) (hp : w.placeOf? m = none)
    (hlookup : x.lookup? (Text.firstPiece '.' m.ownName) =
      (w.opened into serial).attribute? (.module "builtins") (Text.firstPiece '.' m.ownName))
    (line : Nat) :
    ∃ e, x.resolve line m.ownName = .ok e ∧ (w.opened into serial).Stands m e := by
  have himports := hstarted.imports
  obtain ⟨houtside, hbuiltin⟩ := himports.builtins
  cases m with
  | cls c =>
    have himportable := himports.classes c hm.met
    obtain ⟨k, e, d, hk, he, hd, hinner⟩ := himportable.found
    have himplicit : c.moduleName = "builtins" := by
      simp only [World.placeOf?] at hp
      split_ifs at hp with hany himplicit
      simp only [isImplicit, Bool.and_eq_true, decide_eq_true_eq] at himplicit
      exact himplicit.1
    rw [himplicit] at hk
    simp only [Mention.ownName] at hlookup ⊢
    rw [World.attribute?_opened houtside hk he] at hlookup
    exact hs.resolve_importable hstarted himportable hinner hk he hd line hlookup hd
  | form n => cases hp
  | builtin n =>
    have hsplit : ∀ n ∈ builtinNames, Text.split '.' n = [n] ∧ n ≠ "None" ∧
        Text.firstPiece '.' n = n := by decide
    obtain ⟨hone, hnamed, hfirst⟩ := hsplit n hm.met
    obtain ⟨k, e, hk, he⟩ := hbuiltin n hm.met
    have hattribute : (w.opened into serial).attribute? (.module "builtins") n = some e :=
      World.attribute?_opened houtside hk he
    simp only [Mention.ownName, hfirst] at hlookup ⊢
    exact ⟨e, Execution.resolve_undotted hnamed hone (hlookup.trans hattribute) line, hattribute⟩

/-- The path of a place leads to what is found there, where the first part is bound for it. -/
theorem resolve_bound (hs : b.Scope L (w.opened into serial) into serial before x)
    (hstarted : Started L w into serial) (hm : L.Settled w m) {p : Place} (hp : w.placeOf? m = some p)
    {β : Binding} (hβ : L.binding? p.top = some β) (ha : β.anchor = p.anchor)
    (halias : Text.firstPiece '.' p.path ∉ b.aliases L)
    (hbefore : Text.firstPiece '.' p.path ∉ before.map (·.name)) (line : Nat) :
    ∃ e, x.resolve line p.path = .ok e ∧ (w.opened into serial).Stands m e := by
  have himports := hstarted.imports
  cases m with
  | cls c =>
    have himportable := himports.classes c hm.met
    obtain ⟨-, hpath, d, hfound⟩ := himportable.place hp
    have hinner := hfound.inner
    rw [hfound.top] at hβ
    rw [hpath] at halias hbefore hβ hinner ⊢
    obtain ⟨hmem, hname, e', he', hlookup⟩ := hs.lookup?_bound hβ halias hbefore
    obtain ⟨houtside, k, e, hk, he, hd⟩ :=
      hstarted.founded.module_of_class himports hmem (ha.trans hfound.anchor)
    rw [hname] at he
    rw [World.attribute?_opened houtside hk he] at he'
    obtain rfl : e = e' := Option.some.inj he'
    exact hs.resolve_importable hstarted himportable hinner hk he hd line hlookup hd
  | form n =>
    cases hp
    obtain ⟨-, hone, hnamed, hfirst⟩ := plain_typingForms n hm.met
    dsimp only at hβ ha halias hbefore ⊢
    rw [hfirst] at halias hbefore
    obtain ⟨hmem, -, e, he, hlookup⟩ := hs.lookup?_bound hβ halias hbefore
    rw [hstarted.founded.module_of_form himports hmem ha] at he
    exact ⟨e, Execution.resolve_undotted hnamed hone hlookup line, he⟩
  | builtin n => cases hp

/-- A reference that is not qualified leads to what it stands for, unless its name was taken. -/
theorem resolve (hs : b.Scope L (w.opened into serial) into serial before x)
    (hstarted : Started L w into serial) (hm : L.Settled w m) (hunqualified : L.Unqualified w m)
    (hfree : ¬ b.Captured L w before m) (line : Nat) :
    ∃ e, x.resolve line (L.nameOf w m) = .ok e ∧ (w.opened into serial).Stands m e := by
  unfold Captured at hfree
  rw [not_or, not_or] at hfree
  obtain ⟨halias, hbefore, hnone⟩ := hfree
  rcases hp : w.placeOf? m with _ | p
  · obtain ⟨hbound, hversion⟩ := not_or.1 fun h => hnone ⟨hp, h⟩
    have hown : L.nameOf w m = m.ownName := by rw [nameOf, hp]
    rw [hown] at halias hbefore hbound hversion ⊢
    exact hs.resolve_unplaced hstarted hm hp
      (hs.lookup?_free (hs.free _ hversion hbound halias hbefore)) line
  · obtain ⟨hpath, β, hβ, ha⟩ := hm.bound hp hunqualified
    rw [hpath] at halias hbefore ⊢
    exact hs.resolve_bound hstarted hm hp hβ ha halias hbefore line

end Scope

end Blueprint

end ModelContracts
