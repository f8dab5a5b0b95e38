import Mathlib.Data.List.Nodup
import ModelContracts.Proofs.Annotation.Converting
import ModelContracts.Proofs.Reference.Importing

/-!
References to classes in different orders. Classes of which no two go by one name for different things are
all referred to by their own names, in whatever order and however often they are met. The imports and the
modules in the end are the same for every order, unless a thing that is not imported yet is found in the
modules of two of the classes: then it is imported from the module that is met first.
-/

namespace ModelContracts

open Ledger

/-- The first of the names that lead to a class from its module. -/
def ClassId.top (c : ClassId) : String := Text.firstPiece '.' c.qualName

/-- The text for a class that goes by its own name. -/
def ClassId.ownText (c : ClassId) : String := if c = ClassId.noneType then Recording.none else c.qualName

namespace World

variable (w : World)

/-- A class that can be imported: its names lead to it from its module, and it is not local to a function. -/
structure Exports (c : ClassId) : Prop where
  provided : w.hasModule c.moduleName = true
  global : Text.contains "<locals>" c.qualName = false
  leads : (w.walk? (.module c.moduleName) (Text.split '.' c.qualName)).bind Entity.class? = some c

instance (c : ClassId) : Decidable (w.Exports c) :=
  decidable_of_iff (w.hasModule c.moduleName = true ∧ Text.contains "<locals>" c.qualName = false ∧
      (w.walk? (.module c.moduleName) (Text.split '.' c.qualName)).bind Entity.class? = some c)
    ⟨fun ⟨h, h', h''⟩ => ⟨h, h', h''⟩, fun h => ⟨h.provided, h.global, h.leads⟩⟩

/-- Whether a class has to be imported: `None` and the builtin classes do not. -/
def isImported (c : ClassId) : Bool :=
  c ≠ ClassId.noneType && (c = ClassId.any || !isImplicit w c)

/-- The first name of a class, bound to what it leads to in the module of the class. -/
def bindingOf (c : ClassId) : Binding := ⟨c.top, c.moduleName, (w.place c).anchor⟩

/-- Classes that can be imported by their own names, by a ledger that has bound or reserved some names
already: those with one first name start at one thing, and it is neither reserved nor bound to another. -/
structure Abreast (l : Ledger) (cs : List ClassId) : Prop where
  exported : ∀ c ∈ cs, w.Exports c
  start : ∀ c ∈ cs, ∀ d ∈ cs, c.top = d.top → (w.place c).anchor = (w.place d).anchor
  unreserved : ∀ c ∈ cs, c.top ∉ l.reserved
  untaken : ∀ c ∈ cs, ∀ b ∈ l.binding? c.top, b.anchor = (w.place c).anchor

instance (l : Ledger) (cs : List ClassId) : Decidable (w.Abreast l cs) :=
  decidable_of_iff ((∀ c ∈ cs, w.Exports c) ∧
      (∀ c ∈ cs, ∀ d ∈ cs, c.top = d.top → (w.place c).anchor = (w.place d).anchor) ∧
        (∀ c ∈ cs, c.top ∉ l.reserved) ∧
          ∀ c ∈ cs, ∀ b ∈ l.binding? c.top, b.anchor = (w.place c).anchor)
    ⟨fun ⟨hexported, hstart, hfree, htaken⟩ => ⟨hexported, hstart, hfree, htaken⟩,
      fun h => ⟨h.exported, h.start, h.unreserved, h.untaken⟩⟩

/-- What a first name leads to is imported already, or it is imported from the module of all the classes
with this first name. -/
def OneSource (l : Ledger) (cs : List ClassId) : Prop :=
  ∀ c ∈ cs, ∀ d ∈ cs, w.isImported c = true → w.isImported d = true → c.top = d.top →
    c.moduleName = d.moduleName ∨ l.isBound c.top = true

instance (l : Ledger) (cs : List ClassId) : Decidable (w.OneSource l cs) :=
  inferInstanceAs (Decidable (∀ c ∈ cs, ∀ d ∈ cs, _ → _ → _ → _))

variable {w}

theorem Abreast.subset {l : Ledger} {cs ds : List ClassId} (h : w.Abreast l cs) (hds : ds ⊆ cs) :
    w.Abreast l ds where
  exported d hd := h.exported d (hds hd)
  start d hd e he := h.start d (hds hd) e (hds he)
  unreserved d hd := h.unreserved d (hds hd)
  untaken d hd := h.untaken d (hds hd)

theorem OneSource.subset {l : Ledger} {cs ds : List ClassId} (h : w.OneSource l cs) (hds : ds ⊆ cs) :
    w.OneSource l ds := fun c hc d hd => h c (hds hc) d (hds hd)

/-! A class that can be imported, referred to once. -/

theorem place_of_global {c : ClassId} (h : Text.contains "<locals>" c.qualName = false) :
    w.place c = ⟨c.moduleName, c.top, c.qualName, (w.place c).anchor⟩ := by
  simp only [place, h, Bool.false_eq_true, if_false, ClassId.top]

theorem Exports.placed {c : ClassId} (h : w.Exports c) : w.Placed c := by
  refine Or.inr (Or.inr fun hnone => ?_)
  -- only `None` under the first name would leave nothing to bind, and no name leads on from there
  have hattribute : w.attribute? (.module c.moduleName) c.top = some (.value .none) := by
    unfold topAnchor? at hnone
    split at hnone
    next hfound =>
      obtain ⟨m, hm, hlookup⟩ := Option.bind_eq_some_iff.1 hfound
      rw [attribute?, hm, Option.bind_some]
      unfold ClassId.top
      rw [hlookup]
    · split at hnone <;> cases hnone
    · split_ifs at hnone
  have hleads := h.leads
  rw [Text.split_eq, walk?_cons (by rintro ⟨⟩)] at hleads
  unfold ClassId.top at hattribute
  rw [hattribute, Option.bind_some, walk?_none] at hleads
  cases hleads

end World

namespace Ledger

/-- Two ledgers that differ at most in the classes that they have met. -/
structure SameNames (l l' : Ledger) : Prop where
  bindings : l'.bindings = l.bindings
  modules : l'.modules = l.modules
  aliased : l'.aliased = l.aliased
  reserved : l'.reserved = l.reserved

variable {w : World} {l l' L L' : Ledger}

theorem SameNames.refl (l : Ledger) : SameNames l l := ⟨rfl, rfl, rfl, rfl⟩

theorem sameNames_types (l : Ledger) (c : ClassId) :
    SameNames l { l with types := addOnce c l.types } := ⟨rfl, rfl, rfl, rfl⟩

theorem SameNames.binding? (h : SameNames l l') (name : String) : l'.binding? name = l.binding? name := by
  rw [Ledger.binding?, h.bindings, Ledger.binding?]

theorem SameNames.admits (h : SameNames l l') (name : String) (a : Anchor) :
    l'.admits name a = l.admits name a := by
  rw [Ledger.admits, h.binding?, isReserved, h.reserved, Ledger.admits, isReserved]

theorem SameNames.bind (h : SameNames l l') (module name : String) (a : Anchor) :
    SameNames (l.bind module name a) (l'.bind module name a) := by
  have hbound : l'.isBound name = l.isBound name := by rw [isBound, h.binding?, isBound]
  unfold Ledger.bind
  rw [hbound]
  split_ifs
  · exact h
  · constructor <;> simp only [addModule, h.bindings, h.modules, h.aliased, h.reserved]

theorem reference_admitted {module top path : String} {a : Anchor} (h : l.admits top a = true) :
    l.reference module top path a = (path, l.bind module top a) := if_pos h

end Ledger

namespace Recording

variable {w : World} {l : Ledger} {c : ClassId}

/-- Where the first name of a class is free, or leads to the same, the class goes by its own name, which
is bound unless it needs no import. -/
theorem className_exported (h : w.Exports c) (hadmits : l.admits c.top (w.place c).anchor = true) :
    ∃ L, (className w c).run l = (.ok c.ownText, L) ∧
      SameNames (if w.isImported c then l.bind c.moduleName c.top (w.place c).anchor else l) L := by
  unfold className ClassId.ownText
  by_cases hnone : c = ClassId.noneType
  · rw [if_pos hnone, if_pos hnone, if_neg (by simp [World.isImported, hnone])]
    exact ⟨l, rfl, .refl l⟩
  rw [if_neg hnone, if_neg hnone]
  by_cases hany : c = ClassId.any
  · subst hany
    have himported : w.isImported ClassId.any = true := rfl
    rw [if_pos rfl, if_pos himported]
    refine ⟨_, ?_, .refl _⟩
    have hreference : l.typingName "Any" = ("Any", l.bind "typing" "Any" (.cls ClassId.any)) :=
      reference_admitted hadmits
    exact congrArg (fun r => (Except.ok r.1, r.2)) hreference
  rw [if_neg hany]
  by_cases himplicit : isImplicit w c = true
  · rw [if_neg (by simp [World.isImported, himplicit, hany])]
    refine ⟨l, ?_, .refl l⟩
    show (Except.ok (classText w l c).1, (classText w l c).2) = _
    rw [classText, if_pos himplicit]
  rw [Bool.not_eq_true] at himplicit
  rw [if_pos (by simp [World.isImported, himplicit, hnone])]
  have hmet := sameNames_types l c
  refine ⟨_, ?_, hmet.bind c.moduleName c.top (w.place c).anchor⟩
  show (Except.ok (classText w l c).1, (classText w l c).2) = _
  rw [← hmet.admits] at hadmits
  rw [classText_of_placed l himplicit h.placed, World.place_of_global (w := w) h.global,
    reference_admitted hadmits]

end Recording

/-! Classes referred to one after the other. -/

namespace World

variable {w : World} {l L : Ledger} {all seen cs : List ClassId} {more : List Binding} {c : ClassId}

/-- What a ledger has got from references to classes: the first names of those that have to be imported,
bound once each unless they were bound before. -/
structure Added (w : World) (l : Ledger) (cs : List ClassId) (more : List Binding) (L : Ledger) : Prop where
  aliased : L.aliased = l.aliased
  reserved : L.reserved = l.reserved
  bindings : L.bindings = l.bindings ++ more
  modules : L.modules = more.foldl (fun ms b => addOnce b.module ms) l.modules
  nodup : (more.map (·.name)).Nodup
  made : ∀ b ∈ more, l.isBound b.name = false ∧ ∃ c ∈ cs, w.isImported c = true ∧ b = w.bindingOf c
  bound : ∀ c ∈ cs, w.isImported c = true → L.isBound c.top = true

theorem Added.nil (l : Ledger) : Added w l [] [] l :=
  ⟨rfl, rfl, (List.append_nil _).symm, rfl, .nil, by simp, by simp⟩

theorem Added.binding? (h : Added w l cs more L) (name : String) :
    L.binding? name = (l.binding? name).or (more.find? (·.name = name)) := by
  rw [Ledger.binding?, h.bindings, List.find?_append, Ledger.binding?]

/-- A name that is bound leads to what the classes with this first name start at. -/
theorem Abreast.admits (h : w.Abreast l all) (hadded : Added w l seen more L) (hseen : seen ⊆ all)
    (hc : c ∈ all) : L.admits c.top (w.place c).anchor = true := by
  unfold Ledger.admits
  rcases hb : L.binding? c.top with _ | b
  · simpa [isReserved, hadded.reserved] using h.unreserved c hc
  rw [hadded.binding?, Option.or_eq_some_iff] at hb
  refine decide_eq_true ?_
  rcases hb with hold | ⟨-, hnew⟩
  · exact h.untaken c hc b hold
  · obtain ⟨-, d, hd, -, rfl⟩ := hadded.made b (List.mem_of_find?_eq_some hnew)
    have htop : (w.bindingOf d).name = c.top := by simpa using List.find?_some hnew
    exact h.start d (hseen hd) c hc htop

theorem Added.isBound_iff (h : Added w l cs more L) (name : String) :
    L.isBound name = true ↔ l.isBound name = true ∨ ∃ b ∈ more, b.name = name := by
  rw [isBound, h.binding?, Option.isSome_or, Bool.or_eq_true, List.find?_isSome, isBound]
  simp only [decide_eq_true_eq]

/-- One more class for which nothing has to be bound. -/
theorem Added.widen {L' : Ledger} (h : Added w l seen more L) (hL' : SameNames L L')
    (hc : w.isImported c = true → L.isBound c.top = true) : Added w l (seen ++ [c]) more L' where
  aliased := hL'.aliased.trans h.aliased
  reserved := hL'.reserved.trans h.reserved
  bindings := hL'.bindings.trans h.bindings
  modules := hL'.modules.trans h.modules
  nodup := h.nodup
  made b hb := by
    obtain ⟨hfree, d, hd, hbinding⟩ := h.made b hb
    exact ⟨hfree, d, List.mem_append_left _ hd, hbinding⟩
  bound d hd himported := by
    rw [isBound, hL'.binding?, ← isBound]
    rcases List.mem_append.1 hd with hd | hd
    · exact h.bound d hd himported
    · rw [List.mem_singleton.1 hd] at himported ⊢
      exact hc himported

/-- One more class, with a first name that was not bound. -/
theorem Added.extend {L' : Ledger} (h : Added w l seen more L)
    (hL' : SameNames (L.bind c.moduleName c.top (w.place c).anchor) L') (himported : w.isImported c = true)
    (hfree : L.isBound c.top = false) : Added w l (seen ++ [c]) (more ++ [w.bindingOf c]) L' := by
  rw [Ledger.bind, if_neg (by simp [hfree])] at hL'
  have hnew : ¬(l.isBound c.top = true ∨ ∃ b ∈ more, b.name = c.top) :=
    fun hbound => by simp [(h.isBound_iff c.top).2 hbound] at hfree
  obtain ⟨hold, hmore⟩ := not_or.1 hnew
  have hbindings : L'.bindings = l.bindings ++ (more ++ [w.bindingOf c]) := by
    rw [← List.append_assoc, ← h.bindings]
    exact hL'.bindings
  have hbound : ∀ name, L.isBound name = true ∨ name = c.top → L'.isBound name = true := by
    intro name hname
    rw [isBound, Ledger.binding?, hbindings, ← List.append_assoc, ← h.bindings, List.find?_append,
      Option.isSome_or, Bool.or_eq_true]
    exact hname.imp id fun heq => by simp [heq, bindingOf]
  constructor
  case aliased => exact hL'.aliased.trans h.aliased
  case reserved => exact hL'.reserved.trans h.reserved
  case bindings => exact hbindings
  case modules =>
    rw [List.foldl_append, ← h.modules]
    exact hL'.modules
  case nodup =>
    rw [List.map_append, List.nodup_append]
    refine ⟨h.nodup, by simp, fun name hname name' hname' => ?_⟩
    obtain ⟨b, hb, rfl⟩ := List.mem_map.1 hname
    rw [List.mem_singleton.1 hname']
    exact fun heq => hmore ⟨b, hb, heq⟩
  case made =>
    intro b hb
    rcases List.mem_append.1 hb with hb | hb
    · obtain ⟨hunbound, d, hd, hbinding⟩ := h.made b hb
      exact ⟨hunbound, d, List.mem_append_left _ hd, hbinding⟩
    · rw [List.mem_singleton.1 hb]
      exact ⟨Bool.eq_false_iff.2 hold, c, by simp, himported, rfl⟩
  case bound =>
    intro d hd himported'
    rcases List.mem_append.1 hd with hd | hd
    · exact hbound d.top (Or.inl (h.bound d hd himported'))
    · exact hbound d.top (Or.inr (by rw [List.mem_singleton.1 hd]))

/-- One more class that goes by its own name. -/
theorem Added.step {L' : Ledger} (h : Added w l seen more L)
    (hL' : SameNames (if w.isImported c then L.bind c.moduleName c.top (w.place c).anchor else L) L') :
    ∃ more', Added w l (seen ++ [c]) more' L' := by
  by_cases himported : w.isImported c = true
  · rw [if_pos himported] at hL'
    rcases hbound : L.isBound c.top with _ | _
    · exact ⟨_, h.extend hL' himported hbound⟩
    · rw [Ledger.bind, if_pos hbound] at hL'
      exact ⟨more, h.widen hL' fun _ => hbound⟩
  · rw [if_neg himported] at hL'
    exact ⟨more, h.widen hL' fun himported' => (himported himported').elim⟩

/-- Classes referred to one after the other each go by their own names. -/
theorem Abreast.run (h : w.Abreast l all) (hadded : Added w l seen more L) (hseen : seen ⊆ all)
    (hcs : cs ⊆ all) : ∃ more' L', (cs.mapM fun c => Recording.type w (.cls c)).run L =
      (.ok (cs.map ClassId.ownText), L') ∧ Added w l (seen ++ cs) more' L' := by
  induction cs generalizing seen more L with
  | nil => exact ⟨more, L, rfl, by rwa [List.append_nil]⟩
  | cons c cs ih =>
    obtain ⟨hc, hcs⟩ := List.cons_subset.1 hcs
    obtain ⟨L₁, hrun, hnames⟩ := Recording.className_exported (h.exported c hc) (h.admits hadded hseen hc)
    obtain ⟨more₁, hadded₁⟩ := hadded.step hnames
    have hseen₁ : seen ++ [c] ⊆ all := List.append_subset.2 ⟨hseen, by simpa using hc⟩
    obtain ⟨more', L', hruns, hadded'⟩ := ih hadded₁ hseen₁ hcs
    refine ⟨more', L', ?_, by rwa [List.append_assoc] at hadded'⟩
    have htype : (Recording.type w (.cls c)).run L = (.ok c.ownText, L₁) := hrun
    rw [List.mapM_cons, run_bind_of_ok htype, run_bind_of_ok hruns]
    rfl

/-- Where each first name has one source, what was added does not depend on their order. -/
theorem Added.mem_iff (h : w.Abreast l cs) (hsource : w.OneSource l cs) (hadded : Added w l cs more L)
    (b : Binding) :
    b ∈ more ↔ ∃ c ∈ cs, w.isImported c = true ∧ l.isBound c.top = false ∧ b = w.bindingOf c := by
  constructor
  · intro hb
    obtain ⟨hfree, c, hc, himported, rfl⟩ := hadded.made b hb
    exact ⟨c, hc, himported, hfree, rfl⟩
  · rintro ⟨c, hc, himported, hfree, rfl⟩
    obtain ⟨b, hb⟩ := Option.isSome_iff_exists.1 (hadded.bound c hc himported)
    have hold : l.binding? c.top = none := by simpa [isBound] using hfree
    rw [hadded.binding?, hold, Option.none_or] at hb
    -- the name is bound for some class of the list, which has the module and the start of this one
    have hmem := List.mem_of_find?_eq_some hb
    obtain ⟨-, d, hd, himported', rfl⟩ := hadded.made b hmem
    have hname : (w.bindingOf d).name = c.top := by simpa using List.find?_some hb
    have htop : c.top = d.top := hname.symm
    have hmodule := (hsource c hc d hd himported himported' htop).resolve_right (by simp [hfree])
    have hanchor := h.start c hc d hd htop
    rwa [bindingOf, htop, hmodule, hanchor]

end World

/-! The imports in the end. -/

theorem addOnce_perm_insert {α : Type} [DecidableEq α] (a : α) (l : List α) :
    (addOnce a l).Perm (l.insert a) := by
  unfold addOnce
  split_ifs with h
  · rw [List.insert_of_mem h]
  · rw [List.insert_of_not_mem h]
    exact List.perm_append_singleton a l

theorem addOnce_perm {α : Type} [DecidableEq α] (a : α) {l l' : List α} (h : l.Perm l') :
    (addOnce a l).Perm (addOnce a l') :=
  (addOnce_perm_insert a l).trans ((h.insert a).trans (addOnce_perm_insert a l').symm)

theorem addOnce_swap {α : Type} [DecidableEq α] (a b : α) (l : List α) :
    (addOnce a (addOnce b l)).Perm (addOnce b (addOnce a l)) := by
  have hinsert : ∀ a b : α, (addOnce a (addOnce b l)).Perm ((l.insert b).insert a) := fun a b =>
    (addOnce_perm_insert a _).trans ((addOnce_perm_insert b l).insert a)
  exact (hinsert a b).trans ((List.perm_insert_swap a b l).trans (hinsert b a).symm)

theorem foldl_addOnce_congr (bs : List Binding) {ms ms' : List String} (h : ms.Perm ms') :
    (bs.foldl (fun ms b => addOnce b.module ms) ms).Perm
      (bs.foldl (fun ms b => addOnce b.module ms) ms') := by
  induction bs generalizing ms ms' with
  | nil => exact h
  | cons b bs ih => exact ih (addOnce_perm b.module h)

/-- Bindings in another order have the same modules. -/
theorem foldl_addOnce_perm {bs bs' : List Binding} (h : bs.Perm bs') (ms : List String) :
    (bs.foldl (fun ms b => addOnce b.module ms) ms).Perm
      (bs'.foldl (fun ms b => addOnce b.module ms) ms) := by
  induction h generalizing ms with
  | nil => exact .refl ms
  | cons b _ ih => exact ih (addOnce b.module ms)
  | swap a b bs => exact foldl_addOnce_congr bs (addOnce_swap a.module b.module ms)
  | trans _ _ ih ih' => exact (ih ms).trans (ih' ms)

namespace Ledger

theorem importLines_perm {L L' : Ledger} (h : L.bindings.Perm L'.bindings) (ha : L.aliased = L'.aliased) :
    L.importLines = L'.importLines := by
  have hmodules := Text.sorted_eq_of_perm (foldl_addOnce_perm h [])
  have hnames : ∀ m, Text.sorted ((L.bindings.filter (·.module = m)).map (·.name)) =
      Text.sorted ((L'.bindings.filter (·.module = m)).map (·.name)) :=
    fun m => Text.sorted_eq_of_perm ((h.filter _).map _)
  simp only [importLines, hmodules, hnames, ha]

theorem references_perm {L L' : Ledger} (h : L.modules.Perm L'.modules) :
    L.references = L'.references := Text.sorted_eq_of_perm h

end Ledger

namespace World

variable {w : World} {l L L' : Ledger} {cs ds : List ClassId} {more more' : List Binding}

/-- What was added for the same classes in another order, or more often, is imported alike. -/
theorem Added.imports_eq (h : w.Abreast l cs) (hsource : w.OneSource l cs) (hcs : cs ⊆ ds) (hds : ds ⊆ cs)
    (hadded : Added w l cs more L) (hadded' : Added w l ds more' L') :
    L.importLines = L'.importLines ∧ L.references = L'.references := by
  have hmem : ∀ b, b ∈ more ↔ b ∈ more' := by
    intro b
    have hiff : ∀ c, c ∈ cs ↔ c ∈ ds := fun c => ⟨@hcs c, @hds c⟩
    rw [hadded.mem_iff h hsource, hadded'.mem_iff (h.subset hds) (hsource.subset hds)]
    simp only [hiff]
  have hperm : more.Perm more' :=
    (List.perm_ext_iff_of_nodup hadded.nodup.of_map hadded'.nodup.of_map).2 hmem
  constructor
  · refine importLines_perm ?_ (hadded.aliased.trans hadded'.aliased.symm)
    rw [hadded.bindings, hadded'.bindings]
    exact hperm.append_left l.bindings
  · refine references_perm ?_
    rw [hadded.modules, hadded'.modules]
    exact foldl_addOnce_perm hperm l.modules

/-- Importable classes of which no two go by one name for different things have the same texts in whatever
order and however often they are referred to. The imports and the modules are the same too, provided that
each first name has one source. -/
theorem references_in_any_order (h : w.Abreast l cs) (hcs : cs ⊆ ds) (hds : ds ⊆ cs) :
    ∃ L L', (cs.mapM fun c => Recording.type w (.cls c)).run l = (.ok (cs.map ClassId.ownText), L) ∧
      (ds.mapM fun c => Recording.type w (.cls c)).run l = (.ok (ds.map ClassId.ownText), L') ∧
        (w.OneSource l cs → L.importLines = L'.importLines ∧ L.references = L'.references) := by
  obtain ⟨more, L, hrun, hadded⟩ := h.run (.nil l) (List.nil_subset cs) (List.Subset.refl cs)
  obtain ⟨more', L', hrun', hadded'⟩ := h.run (.nil l) (List.nil_subset cs) hds
  exact ⟨L, L', hrun, hrun', fun hsource => hadded.imports_eq h hsource hcs hds hadded'⟩

end World

/-! A class that stands in for another one in two modules. -/

namespace Shapes

def shape : ClassId := ⟨"core", "Shape", 0⟩

/-- A class within the one that is not in its module any more. -/
def style : ClassId := ⟨"core", "Shape.Style", 0⟩

def fastShape : ClassId := ⟨"fast", "Shape", 0⟩

def edge : ClassId := ⟨"fast", "Shape.Edge", 0⟩

def world : World where
  classes := { id := fastShape, lineage := [fastShape, shape] } ::
    [shape, style, edge, ClassId.int, ClassId.any, ClassId.modelNode].map fun c =>
      { id := c, lineage := [c] }
  modules := [
    { name := "core", attributes := [("Shape", .cls fastShape)] },
    { name := "fast", attributes := [("Shape", .cls fastShape)] },
    { name := "modelgen.contracts", attributes := [("ModelNode", .cls ClassId.modelNode)] },
    { name := "typing", attributes := [("Any", .cls ClassId.any)] },
    { name := "builtins", attributes := [("int", .cls ClassId.int)] }]
  nested := [((shape, "Style"), style), ((fastShape, "Edge"), edge)]

def begun : Ledger := start world ClassId.modelNode

def referred (cs : List ClassId) : Ledger :=
  ((cs.mapM fun c => Recording.type world (.cls c)).run begun).2

def classes : List ClassId := [edge, fastShape, ClassId.int, ClassId.any, ClassId.modelNode]

def repeated : List ClassId :=
  [ClassId.any, ClassId.modelNode, fastShape, edge, fastShape, ClassId.any, ClassId.int, edge]

theorem shapes_in_any_order : world.Abreast begun classes ∧ classes ⊆ repeated ∧ repeated ⊆ classes ∧
    world.OneSource begun classes ∧
      ∃ L L', (classes.mapM fun c => Recording.type world (.cls c)).run begun =
          (.ok ["Shape.Edge", "Shape", "int", "Any", "ModelNode"], L) ∧
        (repeated.mapM fun c => Recording.type world (.cls c)).run begun =
          (.ok ["Any", "ModelNode", "Shape", "Shape.Edge", "Shape", "Any", "int", "Shape.Edge"], L') ∧
        L.importLines = L'.importLines ∧ L.references = L'.references := by
  have habreast : world.Abreast begun classes := by decide +kernel
  have hcs : classes ⊆ repeated := by decide
  have hds : repeated ⊆ classes := by decide
  have hsource : world.OneSource begun classes := by decide +kernel
  obtain ⟨L, L', hrun, hrun', himports⟩ := World.references_in_any_order habreast hcs hds
  exact ⟨habreast, hcs, hds, hsource, L, L', hrun, hrun', himports hsource⟩

/-- A class that is found in two modules is imported from the module of the class that is met first. -/
theorem imported_from_first : world.Abreast begun [style, fastShape] ∧
    [style, fastShape] ⊆ [fastShape, style] ∧ [fastShape, style] ⊆ [style, fastShape] ∧
      (referred [style, fastShape]).importLines =
        ["from core import Shape", "from modelgen.contracts import ModelNode"] ∧
      (referred [fastShape, style]).importLines =
        ["from fast import Shape", "from modelgen.contracts import ModelNode"] ∧
      (referred [style, fastShape]).importLines ≠ (referred [fastShape, style]).importLines ∧
      (referred [style, fastShape]).references ≠ (referred [fastShape, style]).references := by
  refine ⟨?_, ?_, ?_, ?_, ?_, ?_, ?_⟩ <;> decide +kernel

end Shapes

end ModelContracts
