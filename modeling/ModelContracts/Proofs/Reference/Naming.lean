import Mathlib.Tactic.SplitIfs
import ModelContracts.Contract.Source
import ModelContracts.Proofs.Running
import ModelContracts.Reference.Rendering

/-!
How a ledger names things. What a source mentions is a class, a form of the typing module or a builtin
name. It has a place, where an import finds it, unless it goes by its own name, and the ledger gives it
a name. A ledger only grows, what it records is for things of which it was told, and a name that was given
once is given ever after.
-/

namespace ModelContracts

inductive Mention where
  | cls (c : ClassId)
  | form (name : String)
  | builtin (name : String)
deriving DecidableEq, Repr

/-! Places. -/

/-- Where something is found: along `path`, which starts at the attribute `top` of a module. -/
structure Place where
  module : String
  top : String
  path : String
  anchor : Anchor

namespace World

variable (w : World)

/-- The place of a class that does not go by its own name everywhere. -/
def place (c : ClassId) : Place :=
  if Text.contains "<locals>" c.qualName then
    ⟨c.moduleName, c.simpleName, c.simpleName, .cls c⟩
  else
    let top := Text.firstPiece '.' c.qualName
    let anchor := if top = c.qualName then .cls c else (Ledger.topAnchor? w c top).getD (.cls c)
    ⟨c.moduleName, top, c.qualName, anchor⟩

def placeOf? : Mention → Option Place
  | .cls c =>
    if c = ClassId.any then some ⟨"typing", "Any", "Any", .cls ClassId.any⟩
    else if Ledger.isImplicit w c then none
    else some (w.place c)
  | .form name => some ⟨"typing", name, name, .form name⟩
  | .builtin _ => none

/-- A class that a module can have under its name: the first part of the name is not `None` there. -/
def Placed (c : ClassId) : Prop :=
  Text.contains "<locals>" c.qualName = true ∨ Text.firstPiece '.' c.qualName = c.qualName ∨
    Ledger.topAnchor? w c (Text.firstPiece '.' c.qualName) ≠ none

end World

/-- The name of what has no place. -/
def Mention.ownName : Mention → String
  | .cls c => c.qualName
  | .form name | .builtin name => name

namespace Ledger

variable (w : World) {l l' l'' : Ledger}

/-- The name that a ledger gives. -/
def nameOf (l : Ledger) (m : Mention) : String :=
  match w.placeOf? m with
  | some p => (l.reference p.module p.top p.path p.anchor).1
  | none => m.ownName

/-- The ledger has what is found at a place under a name: its first part is bound, or its module has
an alias. -/
inductive Names (l : Ledger) (p : Place) : String → Prop
  | bound {b : Binding} (hb : l.binding? p.top = some b) (ha : b.anchor = p.anchor) :
    Names l p p.path
  | qualified (hn : l.admits p.top p.anchor = false) (hm : p.module ∈ l.aliased) :
    Names l p (qualified p.module p.path)

theorem Names.reference {p : Place} {s : String} (h : l.Names p s) :
    (l.reference p.module p.top p.path p.anchor).1 = s := by
  cases h with
  | bound hb ha => simp [Ledger.reference, admits, hb, ha]
  | qualified hn => simp [Ledger.reference, hn]

/-- The forms of the typing module that texts are made of. -/
def typingForms : List String := ["Optional", "Union", "Literal", "Annotated", "Final", "ClassVar", "Any"]

/-- The builtin names that texts are made of. -/
def builtinNames : List String := ["float", "property"]

/-- Whether the class of a mention was met, or goes by its own name everywhere. -/
def Met (l : Ledger) : Mention → Prop
  | .cls c => c = ClassId.any ∨ c ∈ l.types ∨ isImplicit w c = true
  | .form name => name ∈ typingForms
  | .builtin name => name ∈ builtinNames

/-- What is mentioned has a name that will not change. -/
structure Settled (l : Ledger) (m : Mention) : Prop where
  met : l.Met w m
  names : ∀ p, w.placeOf? m = some p → l.Names p (l.nameOf w m)

/-- Each name is bound once, for something that was met, and so has each alias its module. -/
structure Founded (l : Ledger) : Prop where
  nodup : (l.bindings.map (·.name)).Nodup
  made : ∀ b ∈ l.bindings, ∃ m p, w.placeOf? m = some p ∧ l.Met w m ∧
    b = ⟨p.top, p.module, p.anchor⟩
  aliased : ∀ module ∈ l.aliased, ∃ m p, w.placeOf? m = some p ∧ l.Met w m ∧ p.module = module

/-- A later ledger: what was recorded stays, and names that were reserved are not bound. -/
structure Grows (l l' : Ledger) : Prop where
  bindings : ∃ more, l'.bindings = l.bindings ++ more ∧ ∀ b ∈ more, b.name ∉ l.reserved
  reserved : l.reserved ⊆ l'.reserved
  aliased : l.aliased ⊆ l'.aliased
  types : l.types ⊆ l'.types
  founded : l.Founded w → l'.Founded w

variable {w}

/-! Later ledgers. -/

/-- A ledger that comes behind another one, whatever was recorded between. -/
structure Later (l l' : Ledger) : Prop where
  bindings : ∃ more, l'.bindings = l.bindings ++ more ∧ ∀ b ∈ more, b.name ∉ l.reserved
  reserved : l.reserved ⊆ l'.reserved
  aliased : l.aliased ⊆ l'.aliased
  modules : l.modules ⊆ l'.modules
  types : l.types ⊆ l'.types

theorem appended_trans (hreserved : l.reserved ⊆ l'.reserved)
    (h : ∃ more, l'.bindings = l.bindings ++ more ∧ ∀ b ∈ more, b.name ∉ l.reserved)
    (h' : ∃ more, l''.bindings = l'.bindings ++ more ∧ ∀ b ∈ more, b.name ∉ l'.reserved) :
    ∃ more, l''.bindings = l.bindings ++ more ∧ ∀ b ∈ more, b.name ∉ l.reserved := by
  obtain ⟨more, hmore, hfree⟩ := h
  obtain ⟨more', hmore', hfree'⟩ := h'
  refine ⟨more ++ more', by rw [hmore', hmore, List.append_assoc], fun b hb => ?_⟩
  rcases List.mem_append.1 hb with hb | hb
  · exact hfree b hb
  · exact fun hr => hfree' b hb (hreserved hr)

theorem Later.refl (l : Ledger) : Later l l :=
  ⟨⟨[], by simp⟩, List.Subset.refl _, List.Subset.refl _, List.Subset.refl _, List.Subset.refl _⟩

theorem Later.trans (h : Later l l') (h' : Later l' l'') : Later l l'' where
  bindings := appended_trans h.reserved h.bindings h'.bindings
  reserved := List.Subset.trans h.reserved h'.reserved
  aliased := List.Subset.trans h.aliased h'.aliased
  modules := List.Subset.trans h.modules h'.modules
  types := List.Subset.trans h.types h'.types

theorem Later.grows (h : Later l l') (hfounded : l.Founded w → l'.Founded w) : Grows w l l' :=
  ⟨h.bindings, h.reserved, h.aliased, h.types, hfounded⟩

theorem Grows.refl (l : Ledger) : Grows w l l := (Later.refl l).grows id

theorem Grows.trans (h : Grows w l l') (h' : Grows w l' l'') : Grows w l l'' where
  bindings := appended_trans h.reserved h.bindings h'.bindings
  reserved := List.Subset.trans h.reserved h'.reserved
  aliased := List.Subset.trans h.aliased h'.aliased
  types := List.Subset.trans h.types h'.types
  founded := h'.founded ∘ h.founded

theorem subset_addOnce {α : Type} [DecidableEq α] (a : α) (l : List α) : l ⊆ addOnce a l :=
  fun _ h => mem_addOnce.2 (Or.inr h)

theorem later_reserve (l : Ledger) (name : String) : Later l (l.reserve name) :=
  ⟨⟨[], by simp [reserve]⟩, subset_addOnce _ _, List.Subset.refl _, List.Subset.refl _,
    List.Subset.refl _⟩

theorem later_types (l : Ledger) (c : ClassId) : Later l { l with types := addOnce c l.types } :=
  ⟨⟨[], by simp⟩, List.Subset.refl _, List.Subset.refl _, List.Subset.refl _, subset_addOnce _ _⟩

theorem later_importAlias (l : Ledger) (module : String) : Later l (l.importAlias module) :=
  ⟨⟨[], by simp [importAlias, addModule]⟩, List.Subset.refl _, subset_addOnce _ _, subset_addOnce _ _,
    List.Subset.refl _⟩

theorem later_bind {name : String} (module : String) (a : Anchor)
    (hfree : l.isBound name = false → name ∉ l.reserved) : Later l (l.bind module name a) := by
  unfold bind
  split_ifs with hbound
  · exact .refl l
  · exact ⟨⟨_, rfl, by simpa using hfree (Bool.not_eq_true _ ▸ hbound)⟩, List.Subset.refl _,
      List.Subset.refl _, subset_addOnce _ _, List.Subset.refl _⟩

/-! What the records are for. -/

/-- Each name is bound once, for something of a kind, and so has each alias its module. -/
structure Rooted (w : World) (P : Mention → Prop) (l : Ledger) : Prop where
  nodup : (l.bindings.map (·.name)).Nodup
  made : ∀ b ∈ l.bindings, ∃ m p, w.placeOf? m = some p ∧ P m ∧ b = ⟨p.top, p.module, p.anchor⟩
  aliased : ∀ module ∈ l.aliased, ∃ m p, w.placeOf? m = some p ∧ P m ∧ p.module = module

theorem founded_iff : l.Founded w ↔ l.Rooted w (l.Met w) :=
  ⟨fun h => ⟨h.nodup, h.made, h.aliased⟩, fun h => ⟨h.nodup, h.made, h.aliased⟩⟩

namespace Rooted

variable {P Q : Mention → Prop} {m : Mention} {p : Place}

theorem mono (h : l.Rooted w P) (hPQ : ∀ m, P m → Q m) : l.Rooted w Q where
  nodup := h.nodup
  made b hb := by
    obtain ⟨m, p, hp, hm, heq⟩ := h.made b hb
    exact ⟨m, p, hp, hPQ m hm, heq⟩
  aliased module hmodule := by
    obtain ⟨m, p, hp, hm, heq⟩ := h.aliased module hmodule
    exact ⟨m, p, hp, hPQ m hm, heq⟩

theorem importAlias (h : l.Rooted w P) (hp : w.placeOf? m = some p) (hm : P m) :
    (l.importAlias p.module).Rooted w P where
  nodup := h.nodup
  made := h.made
  aliased module hmodule := by
    rcases mem_addOnce.1 hmodule with rfl | hmodule
    · exact ⟨m, p, hp, hm, rfl⟩
    · exact h.aliased module hmodule

theorem bind (h : l.Rooted w P) (hp : w.placeOf? m = some p) (hm : P m) :
    (l.bind p.module p.top p.anchor).Rooted w P := by
  unfold Ledger.bind
  split_ifs with hbound
  · exact h
  · have hnew : ∀ b ∈ l.bindings, b.name ≠ p.top := by simpa [isBound, binding?] using hbound
    refine ⟨?_, fun b hb => ?_, h.aliased⟩
    · unfold addModule
      rw [List.map_append, List.nodup_append]
      refine ⟨h.nodup, by simp, fun a ha b hb => ?_⟩
      obtain ⟨c, hc, rfl⟩ := List.mem_map.1 ha
      rw [List.mem_singleton.1 hb]
      exact hnew c hc
    · rcases List.mem_append.1 hb with hb | hb
      · exact h.made b hb
      · exact ⟨m, p, hp, hm, List.mem_singleton.1 hb⟩

end Rooted

theorem types_bind (l : Ledger) (module name : String) (a : Anchor) :
    (l.bind module name a).types = l.types := by
  unfold bind
  split_ifs <;> rfl

theorem types_reference (l : Ledger) (module top path : String) (a : Anchor) :
    (l.reference module top path a).2.types = l.types := by
  unfold reference
  split_ifs
  · exact types_bind l module top a
  · rfl

/-- A class that has a place is referred to there, and recorded. -/
theorem classText_of_placed (l : Ledger) {c : ClassId} (h : isImplicit w c = false) (hc : w.Placed c) :
    classText w l c = ({ l with types := addOnce c l.types } : Ledger).reference (w.place c).module
      (w.place c).top (w.place c).path (w.place c).anchor := by
  unfold classText
  rw [h]
  dsimp only
  rw [if_neg Bool.false_ne_true]
  by_cases hlocal : Text.contains "<locals>" c.qualName = true
  · simp only [if_pos hlocal, World.place]
  rw [if_neg hlocal]
  by_cases htop : Text.firstPiece '.' c.qualName = c.qualName
  · simp only [World.place, if_neg hlocal, htop, if_true]
  rw [if_neg htop]
  split
  next a ha => simp only [World.place, if_neg hlocal, if_neg htop, ha, Option.getD_some]
  next hnone =>
    rcases hc with h | h | h
    · exact (hlocal h).elim
    · exact (htop h).elim
    · exact (h hnone).elim

/-- A class without a place is recorded, and at most its module gets an alias. -/
theorem classText_of_unplaced (l : Ledger) {c : ClassId} (h : isImplicit w c = false)
    (hc : ¬ w.Placed c) : (classText w l c).2 = { l with types := addOnce c l.types } ∨
      (classText w l c).2 =
        ({ l with types := addOnce c l.types } : Ledger).importAlias (w.place c).module := by
  obtain ⟨hlocal, htop, hnone⟩ := not_or.1 hc |>.imp_right not_or.1
  have hmodule : (w.place c).module = c.moduleName := by
    simp only [World.place, if_neg hlocal]
  unfold classText
  rw [h, hmodule]
  dsimp only
  rw [if_neg Bool.false_ne_true, if_neg hlocal, if_neg htop, Classical.not_not.1 hnone]
  dsimp only
  split_ifs
  · exact Or.inr rfl
  · exact Or.inl rfl

/-- A class that does not go by its own name is recorded with its text. -/
theorem types_classText (l : Ledger) {c : ClassId} (h : isImplicit w c = false) :
    (classText w l c).2.types = addOnce c l.types := by
  by_cases hc : w.Placed c
  · rw [classText_of_placed l h hc]
    exact types_reference ..
  · rcases classText_of_unplaced l h hc with heq | heq
    · rw [heq]
    · rw [heq]
      rfl

theorem Met.grows {m : Mention} (h : l.Met w m) (hg : Grows w l l') : l'.Met w m := by
  cases m with
  | cls c => exact h.imp id fun hc => hc.imp (fun ht => hg.types ht) id
  | _ => exact h

section

variable (hmore : ∃ more, l'.bindings = l.bindings ++ more ∧ ∀ b ∈ more, b.name ∉ l.reserved)

include hmore

/-- What is bound stays bound to the same. -/
theorem binding?_kept {b : Binding} {name : String} (h : l.binding? name = some b) :
    l'.binding? name = some b := by
  obtain ⟨more, hmore, -⟩ := hmore
  unfold binding? at h ⊢
  rw [hmore, List.find?_append, h]
  rfl

/-- A name that is not bound before it is reserved is never bound. -/
theorem binding?_reserved {name : String} (h : l.binding? name = none) (hr : name ∈ l.reserved) :
    l'.binding? name = none := by
  obtain ⟨more, hmore, hfree⟩ := hmore
  unfold binding? at h ⊢
  rw [hmore, List.find?_append, h, Option.none_or, List.find?_eq_none]
  rintro b hb hname
  exact hfree b hb (by rwa [of_decide_eq_true hname])

/-- What cannot have a name cannot have it later. -/
theorem admits_kept {name : String} {a : Anchor} (hreserved : l.reserved ⊆ l'.reserved)
    (h : l.admits name a = false) : l'.admits name a = false := by
  unfold admits at h ⊢
  rcases hb : l.binding? name with _ | b
  · have hr : name ∈ l.reserved := by simpa [hb, isReserved] using h
    rw [binding?_reserved hmore hb hr]
    simpa [isReserved] using hreserved hr
  · rw [hb] at h
    rw [binding?_kept hmore hb]
    exact h

end

theorem Names.grows {p : Place} {s : String} (h : l.Names p s) (hg : Grows w l l') :
    l'.Names p s := by
  cases h with
  | bound hb ha => exact .bound (binding?_kept hg.bindings hb) ha
  | qualified hn hm => exact .qualified (admits_kept hg.bindings hg.reserved hn) (hg.aliased hm)

theorem Settled.nameOf_grows {m : Mention} (h : l.Settled w m) (hg : Grows w l l') :
    l'.nameOf w m = l.nameOf w m := by
  have hnames := h.names
  rcases hp : w.placeOf? m with _ | p
  · simp only [nameOf, hp]
  · have hlater := ((hnames p hp).grows hg).reference
    rw [← hlater]
    simp only [nameOf, hp]

/-- A name that a ledger has for a place is the name of what is there. -/
theorem Names.settled {m : Mention} {p : Place} {s : String} (hp : w.placeOf? m = some p)
    (hm : l.Met w m) (h : l.Names p s) : l.Settled w m ∧ s = l.nameOf w m := by
  have hs : s = l.nameOf w m := by
    simp only [nameOf, hp]
    exact h.reference.symm
  refine ⟨⟨hm, fun q hq => ?_⟩, hs⟩
  rw [hp] at hq
  cases hq
  rwa [← hs]

/-! What each way of recording does. -/

theorem grows_importAlias {m : Mention} {p : Place} (hp : w.placeOf? m = some p) (hm : l.Met w m) :
    Grows w l (l.importAlias p.module) :=
  (later_importAlias l p.module).grows fun h => founded_iff.2 ((founded_iff.1 h).importAlias hp hm)

theorem grows_reserve (l : Ledger) (name : String) : Grows w l (l.reserve name) :=
  (later_reserve l name).grows fun h => ⟨h.nodup, h.made, h.aliased⟩

theorem grows_types (l : Ledger) (c : ClassId) :
    Grows w l { l with types := addOnce c l.types } := by
  have hmet : ∀ m, l.Met w m → ({ l with types := addOnce c l.types } : Ledger).Met w m := by
    intro m hm
    cases m with
    | cls d => exact hm.imp id fun hd => hd.imp (fun ht => mem_addOnce.2 (Or.inr ht)) id
    | _ => exact hm
  refine (later_types l c).grows fun h => ?_
  have hrooted := (founded_iff.1 h).mono hmet
  exact ⟨hrooted.nodup, hrooted.made, hrooted.aliased⟩

theorem met_bind (l : Ledger) (module name : String) (a : Anchor) :
    (l.bind module name a).Met w = l.Met w := by
  funext m
  cases m <;> simp only [Met, types_bind]

theorem grows_bind {m : Mention} {p : Place} (hp : w.placeOf? m = some p) (hm : l.Met w m)
    (hfree : l.isBound p.top = false → p.top ∉ l.reserved) :
    Grows w l (l.bind p.module p.top p.anchor) := by
  refine (later_bind p.module p.anchor hfree).grows fun h => founded_iff.2 ?_
  rw [met_bind]
  exact (founded_iff.1 h).bind hp hm

/-- What a name admits is bound to it, or was. -/
theorem binding?_bind (module : String) {name : String} {a : Anchor} (h : l.admits name a = true) :
    ∃ b, (l.bind module name a).binding? name = some b ∧ b.anchor = a := by
  unfold admits at h
  rcases hb : l.binding? name with _ | b
  · have hunbound : l.isBound name = false := by simp [isBound, hb]
    refine ⟨⟨name, module, a⟩, ?_, rfl⟩
    unfold binding? at hb ⊢
    simp only [bind, hunbound, Bool.false_eq_true, if_false, addModule]
    rw [List.find?_append, hb]
    simp
  · rw [hb] at h
    have hbound : l.isBound name = true := by simp [isBound, hb]
    refine ⟨b, ?_, of_decide_eq_true h⟩
    rw [bind, if_pos hbound, hb]

/-- A name that is not bound is only given away when it is not reserved. -/
theorem not_reserved_of_admits {name : String} {a : Anchor} (h : l.admits name a = true)
    (hfree : l.isBound name = false) : name ∉ l.reserved := by
  have hb : l.binding? name = none := by simpa [isBound] using hfree
  simpa [admits, hb, isReserved] using h

/-- Referring to something gives it a name. -/
theorem names_reference (l : Ledger) (p : Place) :
    (l.reference p.module p.top p.path p.anchor).2.Names p
      (l.reference p.module p.top p.path p.anchor).1 := by
  unfold reference
  split_ifs with hadmits
  · obtain ⟨b, hb, ha⟩ := binding?_bind p.module hadmits
    exact .bound hb ha
  · refine .qualified ?_ (mem_addOnce.2 (Or.inl rfl))
    simpa [admits, binding?, importAlias, addModule, isReserved] using hadmits

theorem grows_reference {m : Mention} {p : Place} (hp : w.placeOf? m = some p) (hm : l.Met w m) :
    Grows w l (l.reference p.module p.top p.path p.anchor).2 := by
  unfold reference
  split_ifs with hadmits
  · exact grows_bind hp hm (not_reserved_of_admits hadmits)
  · exact grows_importAlias hp hm

end Ledger

end ModelContracts
