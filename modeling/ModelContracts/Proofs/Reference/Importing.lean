import Mathlib.Tactic.SplitIfs
import ModelContracts.Proofs.Execution.Numbers
import ModelContracts.Proofs.Reference.Phrases
import ModelContracts.Proofs.Text.Pieces
import ModelContracts.Proofs.Text.Plain

/-!
Classes that a source can import. The first name of such a class is an attribute of its module, and the
class is found by following the other names from one class to the next. What is found there stays the same
while a source runs, which only declares classes of its own.
-/

namespace ModelContracts

namespace World

/-- The class that a path of names leads to, from one class to the next. -/
def inner? (w : World) : ClassId → List String → Option ClassId
  | c, [] => some c
  | c, name :: rest => ((w.classAttribute? c name).bind Entity.class?).bind fun d => w.inner? d rest

/-- A class that the source of a module can import: it is found in another module under names that are
not taken apart. -/
structure Importable (w : World) (into : String) (c : ClassId) : Prop where
  outside : c.moduleName ≠ into
  module : Text.Plain c.moduleName
  present : c.moduleName ≠ "__future__"
  path : Text.Plain c.qualName
  top : Text.Plain (Text.firstPiece '.' c.qualName)
  named : c.qualName ≠ "None"
  global : Text.contains "<locals>" c.qualName = false
  found : ∃ m e d, w.module? c.moduleName = some m ∧
    m.attributes.lookup (Text.firstPiece '.' c.qualName) = some e ∧ e.class? = some d ∧
      w.inner? d (Text.split '.' c.qualName).tail = some c

instance (w : World) (into : String) (c : ClassId) : Decidable (w.Importable into c) :=
  decidable_of_iff (c.moduleName ≠ into ∧ Text.Plain c.moduleName ∧ c.moduleName ≠ "__future__" ∧
    Text.Plain c.qualName ∧ Text.Plain (Text.firstPiece '.' c.qualName) ∧ c.qualName ≠ "None" ∧
      Text.contains "<locals>" c.qualName = false ∧
        ((w.module? c.moduleName).bind fun m =>
          (m.attributes.lookup (Text.firstPiece '.' c.qualName)).bind fun e =>
            e.class?.bind fun d => w.inner? d (Text.split '.' c.qualName).tail) = some c) <| by
    constructor
    · rintro ⟨houtside, hmodule, hpresent, hpath, htop, hnamed, hglobal, hfound⟩
      simp only [Option.bind_eq_some_iff] at hfound
      obtain ⟨m, hm, e, he, d, hd, hinner⟩ := hfound
      exact ⟨houtside, hmodule, hpresent, hpath, htop, hnamed, hglobal, m, e, d, hm, he, hd, hinner⟩
    · intro h
      obtain ⟨m, e, d, hm, he, hd, hinner⟩ := h.found
      refine ⟨h.outside, h.module, h.present, h.path, h.top, h.named, h.global, ?_⟩
      rw [hm, Option.bind_some, he, Option.bind_some, hd, Option.bind_some, hinner]

/-! What a class answers with under a name is no class but one that is nested in it or in a class above
it, one that it is below, or a class of classes. -/

variable {w : World}

theorem class_of_ownAttribute {c d : ClassId} {n : String} {e : Entity}
    (h : w.ownAttribute? c n = some e) (hd : e.class? = some d) :
    e = .cls d ∧ w.nested.lookup (c, n) = some d := by
  unfold ownAttribute? at h
  split at h
  next hnested =>
    cases h
    cases hd
    exact ⟨rfl, hnested⟩
  split at h
  next v hmember =>
    cases h
    unfold member? at hmember
    simp only [Option.bind_eq_bind, Option.bind_eq_some_iff] at hmember
    obtain ⟨_, -, _, -, hv⟩ := hmember
    cases hv
    cases hd
  split at h
  · cases h
  dsimp only at h
  split at h
  next v hdefault =>
    cases h
    obtain ⟨f, -, hv⟩ := Option.bind_eq_some_iff.1 hdefault
    cases f <;> cases hv <;> cases hd
  · split_ifs at h
    cases h
    cases hd

theorem class_of_classAttribute {c d : ClassId} {n : String} {e : Entity}
    (h : w.classAttribute? c n = some e) (hd : e.class? = some d) :
    e = .cls d ∧ ((∃ k, w.nested.lookup (k, n) = some d) ∨ d ∈ w.lineage c ∨ d.generation = 0) := by
  unfold classAttribute? at h
  split at h
  next e' hfound =>
    cases h
    obtain ⟨k, -, hk⟩ := List.exists_of_findSome?_eq_some hfound
    obtain ⟨rfl, hnested⟩ := class_of_ownAttribute hk hd
    exact ⟨rfl, Or.inl ⟨k, hnested⟩⟩
  by_cases hclass : n = "__class__"
  · rw [if_pos hclass] at h
    cases h
    cases hd
    refine ⟨rfl, Or.inr (Or.inr ?_)⟩
    split_ifs <;> rfl
  rw [if_neg hclass] at h
  by_cases hbase : n = "__base__"
  · rw [if_pos hbase] at h
    split at h
    next hlineage =>
      cases h
      cases hd
      exact ⟨rfl, Or.inr (Or.inl (by rw [hlineage]; simp))⟩
    · cases h
      cases hd
  rw [if_neg hbase] at h
  split_ifs at h <;> cases h <;> cases hd

/-! Names of classes lead where they led before. -/

variable {w' w'' : World} {name : String} {number bound : Nat}

/-- The classes with numbers within a bound are the same in both worlds. -/
structure SameClasses (bound : Nat) (w w' : World) : Prop where
  nested : w'.nested = w.nested
  find : ∀ c, c.generation ≤ bound → w'.find? c = w.find? c

theorem SameClasses.trans (h : SameClasses bound w w') (h' : SameClasses bound w' w'') :
    SameClasses bound w w'' :=
  ⟨h'.nested.trans h.nested, fun c hc => (h'.find c hc).trans (h.find c hc)⟩

theorem sameClasses_putModule (w : World) (m : Module) : SameClasses bound w (w.putModule m) :=
  ⟨w.nested_putModule m, fun c _ => w.find?_putModule m c⟩

theorem Grown.sameClasses (h : Grown name number w w') (hbound : bound < number) :
    SameClasses bound w w' where
  nested := h.nested
  find c hc := h.find c fun ⟨_, hnumber⟩ => by omega

section

variable (hsame : SameClasses bound w w') (hw : w.Within bound)

include hsame in
theorem SameClasses.lineage {c : ClassId} (hc : c.generation ≤ bound) :
    w'.lineage c = w.lineage c := by
  rw [World.lineage, hsame.find c hc, World.lineage]

include hw in
theorem lineage_within {c d : ClassId} (hc : c.generation ≤ bound) (hd : d ∈ w.lineage c) :
    d.generation ≤ bound := by
  unfold lineage at hd
  rcases hi : w.find? c with _ | i
  · simp only [hi, List.mem_cons, List.not_mem_nil, or_false] at hd
    rcases hd with rfl | rfl
    · exact hc
    · exact Nat.zero_le bound
  · rw [hi] at hd
    exact hw.lineage c i hi d hd

include hsame in
theorem SameClasses.ownAttribute? {c : ClassId} (hc : c.generation ≤ bound) (n : String) :
    w'.ownAttribute? c n = w.ownAttribute? c n := by
  have hmember : w'.member? c n = w.member? c n := by
    have hmixin : w'.mixin c = w.mixin c := by
      unfold mixin derives
      rw [hsame.lineage hc]
    rw [World.member?, hsame.find c hc, hmixin, World.member?]
  rw [World.ownAttribute?, hsame.nested, hmember, hsame.find c hc, World.ownAttribute?]

include hsame hw in
theorem SameClasses.classAttribute? {c : ClassId} (hc : c.generation ≤ bound) (n : String) :
    w'.classAttribute? c n = w.classAttribute? c n := by
  have hown : ∀ l : List ClassId, (∀ d ∈ l, d.generation ≤ bound) →
      (l.findSome? fun d => w'.ownAttribute? d n) = l.findSome? fun d => w.ownAttribute? d n := by
    intro l hl
    induction l with
    | nil => rfl
    | cons d l ih =>
      rw [List.findSome?_cons, List.findSome?_cons, hsame.ownAttribute? (hl d List.mem_cons_self),
        ih fun d' hd' => hl d' (List.mem_cons_of_mem d hd')]
  have hinherited := hown (w.lineage c) fun d hd => lineage_within hw hc hd
  rw [World.classAttribute?, hsame.lineage hc, hinherited, isEnumeration, derives, hsame.lineage hc,
    hsame.find c hc, World.classAttribute?, isEnumeration, derives]

include hw in
/-- The classes that a class leads to have numbers within the bound. -/
theorem classAttribute?_within {c d : ClassId} {n : String} {e : Entity} (hc : c.generation ≤ bound)
    (h : w.classAttribute? c n = some e) (hd : e.class? = some d) : d.generation ≤ bound := by
  obtain ⟨-, ⟨k, hnested⟩ | hlineage | hstandard⟩ := class_of_classAttribute h hd
  · exact (hw.nested k n d hnested).2
  · exact lineage_within hw hc hlineage
  · exact hstandard ▸ Nat.zero_le bound

include hsame hw in
theorem SameClasses.inner? {c : ClassId} (hc : c.generation ≤ bound) (names : List String) :
    w'.inner? c names = w.inner? c names := by
  induction names generalizing c with
  | nil => rfl
  | cons n rest ih =>
    rw [World.inner?, World.inner?, hsame.classAttribute? hw hc]
    rcases he : (w.classAttribute? c n).bind Entity.class? with _ | d
    · rfl
    · obtain ⟨e, hattribute, hclass⟩ := Option.bind_eq_some_iff.1 he
      exact ih (classAttribute?_within hw hc hattribute hclass)

end

theorem module?_grown (h : Grown name number w w') (n : String) : w'.module? n = w.module? n := by
  rw [module?, h.modules, module?]

theorem hasModule_grown (h : Grown name number w w') (n : String) :
    w'.hasModule n = w.hasModule n := by
  rw [hasModule, module?_grown h, h.importable, hasModule]

/-- What the modules of a world have does not change while a source runs. -/
theorem attribute?_module_grown (h : Grown name number w w') (m n : String) :
    w'.attribute? (.module m) n = w.attribute? (.module m) n := by
  rw [attribute?, module?_grown h, hasModule_grown h, attribute?]

/-- A class and what stands for it have the same attributes. -/
theorem attribute?_of_class {e : Entity} {c : ClassId} (h : e.class? = some c) (n : String) :
    w.attribute? e n = w.classAttribute? c n := by
  unfold Entity.class? at h
  split at h <;> cases h <;> rfl

end World

namespace World

variable {w : World} {into : String} {c : ClassId} {p : Place}

/-- Where a class that can be imported is found: the anchor of its place is the class that its module has
under the first name. -/
structure Found (w : World) (p : Place) (c d : ClassId) : Prop where
  anchor : p.anchor = .cls d
  inner : w.inner? d (Text.split '.' p.path).tail = some c
  top : p.top = Text.firstPiece '.' p.path
  held : ∃ m e, w.module? p.module = some m ∧ m.attributes.lookup p.top = some e ∧
    e.class? = some d

theorem topAnchor?_of_class {m : Module} {e : Entity} {d : ClassId} {top : String}
    (hm : w.module? c.moduleName = some m) (he : m.attributes.lookup top = some e)
    (hd : e.class? = some d) : Ledger.topAnchor? w c top = some (.cls d) := by
  rw [Ledger.topAnchor?, hm, Option.bind_some, he]
  split
  next heq =>
    cases heq
    cases hd
  next heq =>
    cases heq
    rw [hd]
  next heq => cases heq

/-- An anchor that is another class is the class that the module has under the first name. -/
theorem class_of_topAnchor? {d : ClassId} {top : String} (h : Ledger.topAnchor? w c top = some (.cls d))
    (hd : d ≠ c) : ∃ m e, w.module? c.moduleName = some m ∧ m.attributes.lookup top = some e ∧
      e.class? = some d := by
  unfold Ledger.topAnchor? at h
  rcases he : (w.module? c.moduleName).bind fun m => m.attributes.lookup top with _ | e
  · rw [he] at h
    dsimp only at h
    split_ifs at h <;> cases h
    exact (hd rfl).elim
  · obtain ⟨m, hm, hlookup⟩ := Option.bind_eq_some_iff.1 he
    refine ⟨m, e, hm, hlookup, ?_⟩
    rw [he] at h
    split at h
    next => cases h
    next e' _ heq =>
      cases heq
      rcases hclass : e.class? with _ | d'
      · rw [hclass] at h
        cases h
      · rw [hclass] at h
        cases h
        rfl
    next heq => cases heq

theorem Importable.placed (h : w.Importable into c) : w.Placed c := by
  obtain ⟨m, e, d, hm, he, hd, -⟩ := h.found
  refine Or.inr (Or.inr ?_)
  rw [topAnchor?_of_class hm he hd]
  exact Option.some_ne_none _

theorem Importable.place (h : w.Importable into c) (hp : w.placeOf? (.cls c) = some p) :
    p.module = c.moduleName ∧ p.path = c.qualName ∧ ∃ d, w.Found p c d := by
  obtain ⟨m, e, d, hm, he, hd, hinner⟩ := h.found
  simp only [placeOf?] at hp
  split_ifs at hp with hany himplicit
  · cases hp
    subst hany
    have hsame : d = ClassId.any := Option.some.inj hinner
    exact ⟨rfl, rfl, d, by rw [hsame], hinner, rfl, m, e, hm, he, hd⟩
  · cases hp
    unfold World.place
    rw [if_neg (by simp [h.global])]
    refine ⟨rfl, rfl, d, ?_, hinner, rfl, m, e, hm, he, hd⟩
    dsimp only
    split_ifs with htop
    · rw [Text.split_of_firstPiece htop] at hinner
      rw [← Option.some.inj hinner]
    · rw [topAnchor?_of_class hm he hd, Option.getD_some]

end World

namespace Execution

variable {x : Execution} {e : Entity} {c d : ClassId} {names : List String}

/-- What a name leads to: its first part is looked up, and the other parts are followed from there. -/
theorem resolve_first {name : String} (hnamed : name ≠ "None")
    (hlookup : x.lookup? (Text.firstPiece '.' name) = some e) (line : Nat) :
    x.resolve line name = x.walk line e (Text.split '.' name).tail := by
  rw [resolve, if_neg hnamed, Text.split_eq]
  dsimp only
  rw [hlookup]
  rfl

theorem resolve_undotted {name : String} (hnamed : name ≠ "None")
    (hone : Text.split '.' name = [name]) (hlookup : x.lookup? name = some e) (line : Nat) :
    x.resolve line name = .ok e := by
  rw [resolve, if_neg hnamed, hone]
  dsimp only
  rw [hlookup]
  rfl

/-- The walk from a class ends at the class that the names lead to. -/
theorem walk_classes (line : Nat) (h : x.world.inner? d names = some c) :
    x.walk line (.cls d) names = .ok (.cls c) := by
  induction names generalizing d with
  | nil =>
    cases h
    rfl
  | cons n rest ih =>
    obtain ⟨k, hk, hrest⟩ := Option.bind_eq_some_iff.1 h
    obtain ⟨e, he, hclass⟩ := Option.bind_eq_some_iff.1 hk
    obtain ⟨rfl, -⟩ := World.class_of_classAttribute he hclass
    have hattribute : x.world.attribute? (.cls d) n = some (.cls k) := he
    rw [walk, hattribute]
    exact ih hrest

theorem walk_inner (line : Nat) (he : e.class? = some d) (h : x.world.inner? d names = some c) :
    ∃ e', x.walk line e names = .ok e' ∧ e'.class? = some c := by
  cases names with
  | nil =>
    cases h
    exact ⟨e, rfl, he⟩
  | cons n rest =>
    obtain ⟨k, hk, hrest⟩ := Option.bind_eq_some_iff.1 h
    obtain ⟨e', hattribute, hclass⟩ := Option.bind_eq_some_iff.1 hk
    obtain ⟨rfl, -⟩ := World.class_of_classAttribute hattribute hclass
    refine ⟨.cls c, ?_, rfl⟩
    rw [walk, World.attribute?_of_class he, hattribute]
    exact walk_classes line hrest

end Execution

/-! Ledgers of importable classes. -/

/-- The classes that a ledger has met can be imported, and the builtin names that texts are made of are
there. -/
structure World.Imports (w : World) (into : String) (L : Ledger) : Prop where
  classes : ∀ c, L.Met w (.cls c) → w.Importable into c
  builtins : "builtins" ≠ into ∧ ∀ n ∈ Ledger.builtinNames,
    ∃ m e, w.module? "builtins" = some m ∧ m.attributes.lookup n = some e

/-- The names of the place and of its module are not taken apart. -/
structure Place.Plain (p : Place) : Prop where
  top : Text.Plain p.top
  path : Text.Plain p.path
  module : Text.Plain p.module
  present : p.module ≠ "__future__"

namespace World

/-- What a source can mention: classes that it can import, and forms whose names are not taken apart. -/
def Mentionable (w : World) (into : String) : Mention → Prop
  | .cls c => w.Importable into c
  | .form name => Text.Plain name
  | .builtin _ => True

instance (w : World) (into : String) : DecidablePred (w.Mentionable into)
  | .cls c => inferInstanceAs (Decidable (w.Importable into c))
  | .form name => inferInstanceAs (Decidable (Text.Plain name))
  | .builtin _ => .isTrue trivial

/-- A module has a class under a name. -/
def Holds (w : World) (module name : String) (d : ClassId) : Prop :=
  ∃ k e, w.module? module = some k ∧ k.attributes.lookup name = some e ∧ e.class? = some d

variable {w : World} {into : String} {m : Mention} {p : Place}

theorem Mentionable.plain (h : w.Mentionable into m) (hp : w.placeOf? m = some p) : p.Plain := by
  cases m with
  | cls c =>
    have himportable : w.Importable into c := h
    obtain ⟨hmodule, hpath, d, hfound⟩ := himportable.place hp
    constructor
    case top => exact hfound.top ▸ hpath ▸ himportable.top
    case path => exact hpath ▸ himportable.path
    case module => exact hmodule ▸ himportable.module
    case present => exact hmodule ▸ himportable.present
  | form n =>
    cases hp
    have htyping : Text.Plain "typing" ∧ "typing" ≠ "__future__" := by decide
    exact ⟨h, h, htyping.1, htyping.2⟩
  | builtin n => cases hp

/-- The module of a place that leads to a class has this class there. -/
theorem Mentionable.held (h : w.Mentionable into m) (hp : w.placeOf? m = some p) {d : ClassId}
    (ha : p.anchor = .cls d) : p.module ≠ into ∧ w.Holds p.module p.top d := by
  cases m with
  | cls c =>
    have himportable : w.Importable into c := h
    obtain ⟨hmodule, -, d', hfound⟩ := himportable.place hp
    obtain rfl : d' = d := by
      have hboth := hfound.anchor.symm.trans ha
      cases hboth
      rfl
    exact ⟨by rw [hmodule]; exact himportable.outside, hfound.held⟩
  | form n =>
    cases hp
    cases ha
  | builtin n => cases hp

/-- Only forms are found where the typing module has a form. -/
theorem Mentionable.typing (h : w.Mentionable into m) (hp : w.placeOf? m = some p) {n : String}
    (ha : p.anchor = .form n) : p.module = "typing" := by
  cases m with
  | cls c =>
    have himportable : w.Importable into c := h
    obtain ⟨-, -, d, hfound⟩ := himportable.place hp
    have hboth := hfound.anchor.symm.trans ha
    cases hboth
  | form n =>
    cases hp
    rfl
  | builtin n => cases hp

end World

/-- The names of the classes that a ledger has met are not taken apart, whether or not the classes can be
imported. -/
structure World.Spells (w : World) (L : Ledger) : Prop where
  sure : L.Sure w
  placed : ∀ c p, L.Met w (.cls c) → w.placeOf? (.cls c) = some p → p.Plain
  own : ∀ c, L.Met w (.cls c) → w.placeOf? (.cls c) = none → Text.Plain c.qualName

/-- The classes that the builtin module has. -/
def World.implicitClasses (w : World) : List ClassId :=
  ((w.module? "builtins").map fun m => m.attributes.filterMap fun a => a.2.class?).getD []

namespace Ledger

variable {w : World} {into : String} {L : Ledger}

theorem mem_implicitClasses {c : ClassId} (h : isImplicit w c = true) : c ∈ w.implicitClasses := by
  obtain ⟨-, hfound⟩ := Bool.and_eq_true_iff.1 h
  split at hfound
  next e he =>
    obtain ⟨m, hm, he⟩ := Option.bind_eq_some_iff.1 he
    rw [World.implicitClasses, hm, Option.map_some, Option.getD_some]
    exact List.mem_filterMap.2 ⟨_, mem_of_lookup he, of_decide_eq_true hfound⟩
  · cases hfound

theorem imports_of_forall
    (hclasses : ∀ c ∈ ClassId.any :: (L.types ++ w.implicitClasses), w.Importable into c)
    (hbuiltins : "builtins" ≠ into ∧ ∀ n ∈ builtinNames,
      ((w.module? "builtins").bind fun m => m.attributes.lookup n).isSome = true) :
    w.Imports into L where
  classes c hc := by
    refine hclasses c ?_
    rcases hc with rfl | hc | hc
    · exact List.mem_cons_self
    · exact List.mem_cons_of_mem _ (List.mem_append_left _ hc)
    · exact List.mem_cons_of_mem _ (List.mem_append_right _ (mem_implicitClasses hc))
  builtins := by
    refine ⟨hbuiltins.1, fun n hn => ?_⟩
    obtain ⟨e, he⟩ := Option.isSome_iff_exists.1 (hbuiltins.2 n hn)
    obtain ⟨m, hm, he⟩ := Option.bind_eq_some_iff.1 he
    exact ⟨m, e, hm, he⟩

theorem plain_typingForms : ∀ n ∈ typingForms, Text.Plain n ∧ Text.split '.' n = [n] ∧ n ≠ "None" ∧
    Text.firstPiece '.' n = n := by decide

theorem sure_of_imports (h : w.Imports into L) : L.Sure w :=
  fun c hc => (h.classes c (Or.inr (Or.inl hc))).placed

theorem mentionable_of_imports (h : w.Imports into L) {m : Mention} (hm : L.Met w m) :
    w.Mentionable into m := by
  cases m with
  | cls c => exact h.classes c hm
  | form n => exact (plain_typingForms n hm).1
  | builtin n => trivial

theorem spells_of_imports (h : w.Imports into L) : w.Spells L where
  sure := sure_of_imports h
  placed _ _ hc hp := (mentionable_of_imports h hc).plain hp
  own c hc _ := (h.classes c hc).path

theorem Met.plain {m : Mention} {p : Place} (h : w.Spells L) (hm : L.Met w m)
    (hp : w.placeOf? m = some p) : p.Plain := by
  cases m with
  | cls c => exact h.placed c p hm hp
  | form n =>
    have hplain := (plain_typingForms n hm).1
    exact @World.Mentionable.plain w "" (.form n) p hplain hp
  | builtin n => cases hp

end Ledger

end ModelContracts
