import ModelContracts.Proofs.Reference.Types

/-!
What a ledger is asked for: types to be written, forms of the typing module, and names to be kept for
contracts. Whatever it is asked for, a ledger only grows. What was answered once gets the same answer ever
after, and the ledger stays as it is.
-/

namespace ModelContracts

open Ledger

variable {w : World}

/-! Runs that only refer. -/

namespace Phrase

/-- All that a phrase mentions is of a kind. -/
def Over (P : Mention → Prop) (p : Phrase) : Prop := ∀ m ∈ p.mentions, P m

instance {P : Mention → Prop} [DecidablePred P] (p : Phrase) : Decidable (p.Over P) :=
  inferInstanceAs (Decidable (∀ m ∈ p.mentions, P m))

variable {P : Mention → Prop}

@[simp] theorem over_nil : Over P [] := nofun

@[simp] theorem over_word {s : String} {p : Phrase} : Over P (.word s :: p) ↔ p.Over P := Iff.rfl

@[simp] theorem over_mention {m : Mention} {p : Phrase} :
    Over P (.mention m :: p) ↔ P m ∧ p.Over P := List.forall_mem_cons

@[simp] theorem over_append {p q : Phrase} : Over P (p ++ q) ↔ p.Over P ∧ q.Over P := by
  simp only [Over, mentions_append, List.forall_mem_append]

theorem over_commas {ps : List Phrase} : Over P (commas ps) ↔ ∀ p ∈ ps, p.Over P := by
  induction ps with
  | nil => simp [commas]
  | cons p rest ih =>
    cases rest with
    | nil => simp [commas]
    | cons q rest =>
      rw [commas, over_append, over_word, ih]
      exact List.forall_mem_cons.symm

theorem over_bracketed {head : Phrase} {parts : List Phrase} :
    Over P (bracketed head parts) ↔ head.Over P ∧ ∀ p ∈ parts, p.Over P := by
  rw [bracketed, over_append, over_append, over_word, over_word, over_commas, and_iff_left over_nil]

end Phrase

namespace Recording

/-- A run that records nothing but references to mentions of a kind. -/
inductive Refers (w : World) (P : Mention → Prop) : {α : Type} → Recording α → Prop
  | pure {α : Type} (a : α) : Refers w P (pure a : Recording α)
  | throw {α : Type} (e : Unrenderable) : Refers w P (throw e : Recording α)
  | cls {c : ClassId} (h : c.phrase.Over P) : Refers w P (className w c)
  | form {name : String} (h : (Phrase.form name).Over P) : Refers w P (form name)
  | bind {α β : Type} {m : Recording α} {f : α → Recording β} (hm : Refers w P m)
    (hf : ∀ a, Refers w P (f a)) : Refers w P (m >>= f)

variable {P : Mention → Prop}

theorem literalText_refers {v : Value} (h : (w.literalPhrase v).Over P) :
    Refers w P (literalText w v) := by
  unfold literalText
  unfold World.literalPhrase at h
  split at h
  · exact (Refers.cls (Phrase.over_append.1 h).1).bind fun _ => .pure _
  · exact .pure _

mutual

theorem text_refers (inside : Bool) : (t : TypeExpr) → (w.typePhrase t).Over P →
    Refers w P (text w inside t)
  | .cls _, h => .cls h
  | .forward _, _ => .pure _
  | .forwardRef _, _ => .pure _
  | .annotated base _, h => text_refers false base h
  | .union _ ts, h => by
    unfold World.typePhrase at h
    unfold text
    split_ifs at h ⊢
    · obtain ⟨hhead, hparts⟩ := Phrase.over_bracketed.1 h
      exact (Refers.form hhead).bind fun _ => (others_refers ts hparts).bind fun _ => .pure _
    · obtain ⟨hhead, hparts⟩ := Phrase.over_bracketed.1 h
      exact (Refers.form hhead).bind fun _ => (texts_refers false ts hparts).bind fun _ => .pure _
  | .literal vs, h => by
    obtain ⟨hhead, hparts⟩ := Phrase.over_bracketed.1 h
    exact (literals_refers vs hparts).bind fun _ => (Refers.form hhead).bind fun _ => .pure _
  | .generic _ origin args, h => by
    have hparts : origin.phrase.Over P ∧ ∀ p ∈ w.typePhrases args, p.Over P := by
      unfold World.typePhrase at h
      dsimp only at h
      split_ifs at h with hempty
      · rw [List.isEmpty_iff.1 hempty]
        exact ⟨h, nofun⟩
      · exact Phrase.over_bracketed.1 h
    exact (Refers.cls hparts.1).bind fun _ => (texts_refers true args hparts.2).bind fun _ => .pure _
  | .qualified q t, h => by
    obtain ⟨hhead, hparts⟩ := Phrase.over_bracketed.1 h
    exact (Refers.form hhead).bind fun _ =>
      (text_refers true t (hparts _ List.mem_cons_self)).bind fun _ => .pure _
  | .qualifier _, _ => .throw _
  | .typeVar _, _ => .throw _
  | .ellipsis, _ => by
    unfold text
    split_ifs
    · exact .pure _
    · exact .throw _
  | .params ts, h => by
    have hparts := Phrase.over_commas.1 (Phrase.over_append.1 h).1
    unfold text
    split_ifs
    · exact (texts_refers true ts hparts).bind fun _ => .pure _
    · exact .throw _
  | .value v, h => by
    unfold text
    split_ifs
    · exact listed_refers v h
    · exact .throw _
termination_by structural t => t

theorem texts_refers (inside : Bool) : (ts : List TypeExpr) → (∀ p ∈ w.typePhrases ts, p.Over P) →
    Refers w P (texts w inside ts)
  | [], _ => .pure _
  | t :: ts, h => by
    obtain ⟨hfirst, hrest⟩ := List.forall_mem_cons.1 h
    exact (text_refers inside t hfirst).bind fun _ => (texts_refers inside ts hrest).bind fun _ => .pure _
termination_by structural ts => ts

theorem others_refers : (ts : List TypeExpr) → (∀ p ∈ w.otherPhrases ts, p.Over P) →
    Refers w P (others w ts)
  | [], _ => .pure _
  | t :: ts, h => by
    unfold World.otherPhrases at h
    unfold others
    split_ifs at h ⊢
    · exact others_refers ts h
    · obtain ⟨hfirst, hrest⟩ := List.forall_mem_cons.1 h
      exact (text_refers false t hfirst).bind fun _ => (others_refers ts hrest).bind fun _ => .pure _
termination_by structural ts => ts

theorem listed_refers : (v : Value) → (w.valuePhrase v).Over P → Refers w P (listed w v)
  | .list items, h => (listedAll_refers items (Phrase.over_commas.1 (Phrase.over_append.1 h).1)).bind
      fun _ => .pure _
  | .tuple items, h => (listedAll_refers items (Phrase.over_commas.1 (Phrase.over_append.1 h).1)).bind
      fun _ => .pure _
  | .type t, h => text_refers true t h
  | .text _, _ => .pure _
  | .none, _ => .pure _
  | .bool _, _ => .throw _
  | .int _, _ => .throw _
  | .float _, _ => .throw _
  | .complex _ _, _ => .throw _
  | .decimal _, _ => .throw _
  | .fraction _, _ => .throw _
  | .bytes _, _ => .throw _
  | .buffer _, _ => .throw _
  | .member _ _ _ _, _ => .throw _
  | .dict _, _ => .throw _
  | .date _ _ _, _ => .throw _
  | .moment _ _ _ _ _ _, _ => .throw _
  | .number _ _, _ => .throw _
  | .marker _ _ _, _ => .throw _
termination_by structural v => v

theorem listedAll_refers : (vs : List Value) → (∀ p ∈ w.valuePhrases vs, p.Over P) →
    Refers w P (listedAll w vs)
  | [], _ => .pure _
  | v :: vs, h => by
    obtain ⟨hfirst, hrest⟩ := List.forall_mem_cons.1 h
    exact (listed_refers v hfirst).bind fun _ => (listedAll_refers vs hrest).bind fun _ => .pure _
termination_by structural vs => vs

theorem literals_refers : (vs : List Value) → (∀ p ∈ w.literalPhrases vs, p.Over P) →
    Refers w P (literals w vs)
  | [], _ => .pure _
  | v :: vs, h => by
    obtain ⟨hfirst, hrest⟩ := List.forall_mem_cons.1 h
    rw [literals_cons]
    exact (literalText_refers hfirst).bind fun _ => (literals_refers vs hrest).bind fun _ => .pure _
termination_by structural vs => vs

end

end Recording

/-! Later ledgers. -/

namespace Ledger

variable {l l' L : Ledger}

theorem addOnce_of_mem {α : Type} [DecidableEq α] {a : α} {l : List α} (h : a ∈ l) : addOnce a l = l :=
  if_pos h

theorem later_reference (l : Ledger) (module top path : String) (a : Anchor) :
    Later l (l.reference module top path a).2 := by
  unfold reference
  split_ifs with hadmits
  · exact later_bind module a (not_reserved_of_admits hadmits)
  · exact later_importAlias l module

theorem later_classText (l : Ledger) (c : ClassId) : Later l (classText w l c).2 := by
  by_cases himplicit : isImplicit w c = true
  · unfold classText
    rw [if_pos himplicit]
    exact .refl l
  have hexplicit : isImplicit w c = false := Bool.not_eq_true _ ▸ himplicit
  by_cases hplaced : w.Placed c
  · rw [classText_of_placed l hexplicit hplaced]
    exact (later_types l c).trans (later_reference ..)
  · rcases classText_of_unplaced l hexplicit hplaced with heq | heq <;> rw [heq]
    · exact later_types l c
    · exact (later_types l c).trans (later_importAlias ..)

/-! References that were made before. -/

theorem importAlias_of_mem {module : String} (haliased : module ∈ l.aliased)
    (hmodule : module ∈ l.modules) : l.importAlias module = l := by
  unfold importAlias addModule
  rw [addOnce_of_mem haliased, addOnce_of_mem hmodule]

/-- What was referred to is referred to by the same name ever after, and the ledger keeps still. -/
theorem reference_again {module top path : String} {a : Anchor}
    (h : Later (l.reference module top path a).2 L) :
    L.reference module top path a = ((l.reference module top path a).1, L) := by
  unfold reference at h ⊢
  by_cases hadmits : l.admits top a = true
  · rw [if_pos hadmits] at h ⊢
    obtain ⟨b, hb, rfl⟩ := binding?_bind module hadmits
    have hkept := binding?_kept h.bindings hb
    have hbound : L.isBound top = true := by rw [isBound, hkept, Option.isSome_some]
    have hadmitted : L.admits top b.anchor = true := by simp [admits, hkept]
    rw [if_pos hadmitted, bind, if_pos hbound]
  · rw [if_neg hadmits] at h ⊢
    -- the name is taken or reserved, and neither changes: it cannot be bound to this later
    have hrefused := admits_kept ((later_importAlias l module).trans h).bindings
      ((later_importAlias l module).trans h).reserved (Bool.not_eq_true _ ▸ hadmits)
    have haliased : module ∈ L.aliased := h.aliased (mem_addOnce.2 (Or.inl rfl))
    have hmodule : module ∈ L.modules := h.modules (mem_addOnce.2 (Or.inl rfl))
    rw [hrefused, if_neg Bool.false_ne_true, importAlias_of_mem haliased hmodule]

theorem typingName_again {name : String} (h : Later (l.typingName name).2 L) :
    L.typingName name = ((l.typingName name).1, L) := reference_again h

theorem classText_again {c : ClassId} (hc : w.Placed c) (h : Later (classText w l c).2 L) :
    classText w L c = ((classText w l c).1, L) := by
  by_cases himplicit : isImplicit w c = true
  · unfold classText
    rw [if_pos himplicit, if_pos himplicit]
  have hexplicit : isImplicit w c = false := Bool.not_eq_true _ ▸ himplicit
  have htypes : c ∈ L.types := h.types (by
    rw [types_classText l hexplicit]
    exact mem_addOnce.2 (Or.inl rfl))
  rw [classText_of_placed l hexplicit hc] at h ⊢
  rw [classText_of_placed L hexplicit hc, addOnce_of_mem htypes]
  exact reference_again h

end Ledger

namespace Recording

variable {P : Mention → Prop} {α : Type} {m : Recording α}

theorem Refers.later (h : Refers w P m) (l : Ledger) : Later l (m.run l).2 := by
  -- also a run that fails in the middle has recorded what it referred to before
  induction h generalizing l with
  | pure a => exact .refl l
  | throw e => exact .refl l
  | @cls c _ =>
    unfold className
    split_ifs
    · exact .refl l
    · exact later_reference ..
    · exact later_classText l c
  | form _ => exact later_reference ..
  | @bind _ _ m _ _ _ ihm ihf =>
    have hfirst := ihm l
    rw [run_bind]
    rcases hm : m.run l with ⟨e | a, l'⟩ <;> rw [hm] at hfirst
    · exact hfirst
    · exact hfirst.trans (ihf a l')

theorem of_again {f : Ledger → String × Ledger} {l l' L : Ledger} {s : String}
    (h : Later (f l).2 L → f L = ((f l).1, L)) (hrun : (of f).run l = (.ok s, l'))
    (hlater : Later l' L) : (of f).run L = (.ok s, L) := by
  have hof (k : Ledger) : (of f).run k = (.ok (f k).1, (f k).2) := rfl
  rw [hof] at hrun ⊢
  cases hrun
  rw [h hlater]

/-- A run that succeeded gives the same when it is run again, and the ledger keeps still. -/
theorem Refers.again (h : Refers w P m) (hplaced : ∀ c, P (.cls c) → w.Placed c) {l l' L : Ledger}
    {a : α} (hrun : m.run l = (.ok a, l')) (hlater : Later l' L) : m.run L = (.ok a, L) := by
  -- the first part of a run is followed by the rest of it, so `L` comes behind each part
  induction h generalizing l l' L with
  | pure a =>
    cases hrun
    rfl
  | throw e => cases hrun
  | @cls c hc =>
    unfold className at hrun ⊢
    unfold ClassId.phrase at hc
    split_ifs at hrun hc ⊢
    · cases hrun
      rfl
    · exact of_again typingName_again hrun hlater
    · exact of_again (classText_again (hplaced c (Phrase.over_mention.1 hc).1)) hrun hlater
  | form _ => exact of_again typingName_again hrun hlater
  | @bind _ _ m f _ hf ihm ihf =>
    obtain ⟨b, k, hm, hrest⟩ := run_bind_ok hrun
    have hk : Later k L := by
      have hgrows := (hf b).later k
      rw [hrest] at hgrows
      exact hgrows.trans hlater
    rw [run_bind_of_ok (ihm hm hk)]
    exact ihf b hrest hlater

end Recording

/-! Demands. -/

/-- What a ledger is asked for: the text of a type, that of a form of the typing module, or to keep a
name for a contract. -/
inductive Demand where
  | type (t : TypeExpr)
  | form (name : String)
  | reserve (name : String)

namespace Demand

/-- All that an answer can mention. -/
def phrase (w : World) : Demand → Phrase
  | .type t => w.typePhrase t
  | .form name => Phrase.form name
  | .reserve _ => []

/-- The answer, if there is one, and the ledger afterwards. -/
def run (w : World) (l : Ledger) : Demand → Option String × Ledger
  | .type t => match (Recording.type w t).run l with
    | (.ok s, l) => (some s, l)
    | (.error _, l) => (none, l)
  | .form name =>
    let (s, l) := l.typingName name
    (some s, l)
  | .reserve name => (none, l.reserve name)

end Demand

namespace Ledger

/-- The ledger behind some demands. -/
def afterAll (w : World) (l : Ledger) (rs : List Demand) : Ledger :=
  rs.foldl (fun l r => (r.run w l).2) l

end Ledger

namespace Demand

variable {l L : Ledger}

theorem later (l : Ledger) (r : Demand) : Later l (r.run w l).2 := by
  cases r with
  | type t =>
    have hlater := (Recording.text_refers (w := w) (P := fun _ => True) false t fun _ _ => trivial).later l
    simp only [run, Recording.type]
    split <;> next heq => rwa [heq] at hlater
  | form name => exact later_reference ..
  | reserve name => exact later_reserve l name

theorem later_afterAll (l : Ledger) (rs : List Demand) : Later l (l.afterAll w rs) := by
  induction rs generalizing l with
  | nil => exact .refl l
  | cons r rs ih => exact (r.later l).trans (ih _)

/-- What was answered gets the same answer by each later ledger, and changes nothing. -/
theorem run_later {r : Demand} {s : String} (hanswer : (r.run w l).1 = some s)
    (hplaced : ∀ c, .cls c ∈ (r.phrase w).mentions → w.Placed c) (h : Later (r.run w l).2 L) :
    r.run w L = (some s, L) := by
  cases r with
  | type t =>
    have hrefers := Recording.text_refers (w := w)
      (P := fun m => ∀ c, m = .cls c → w.Placed c) false t fun m hm c hc => hplaced c (hc ▸ hm)
    simp only [run, Recording.type] at hanswer h ⊢
    rcases hrun : (Recording.text w false t).run l with ⟨e | s', l'⟩ <;> rw [hrun] at hanswer h
    · cases hanswer
    · cases hanswer
      rw [hrefers.again (fun c hc => hc c rfl) hrun h]
  | form name =>
    have hrun (k : Ledger) : (form name).run w k = (some (k.typingName name).1, (k.typingName name).2) := rfl
    rw [hrun] at hanswer h ⊢
    rw [typingName_again h]
    exact congrArg (·, L) hanswer
  | reserve name => cases hanswer

/-- What was answered once gets the same answer whatever the ledger was asked for since, and the ledger with
its imports, modules and types stays as it is. The classes are such as a module can have under their names;
they may share names with each other and with what is reserved. -/
theorem answered_again {host : ClassId} {before : List Demand} {r : Demand} {s : String}
    (hanswer : (r.run w ((start w host).afterAll w before)).1 = some s)
    (hplaced : ∀ c, .cls c ∈ (r.phrase w).mentions → w.Placed c) (more : List Demand) :
    r.run w ((start w host).afterAll w (before ++ r :: more)) =
      (some s, (start w host).afterAll w (before ++ r :: more)) := by
  refine run_later hanswer hplaced ?_
  have hsplit : (start w host).afterAll w (before ++ r :: more) =
      (r.run w ((start w host).afterAll w before)).2.afterAll w more := List.foldl_append ..
  rw [hsplit]
  exact later_afterAll _ more

end Demand

/-! Two classes of one name. -/

namespace Namesakes

def world : World := { classes := [], modules := [] }

def color : ClassId := ⟨"app", "Color", 0⟩

def namesake : ClassId := ⟨"lib", "Color", 0⟩

/-- The class or nothing. -/
def optional (c : ClassId) : Demand := .type (.union false [.cls c, .cls ClassId.noneType])

def later : Ledger :=
  (start world ClassId.modelNode).afterAll world ([optional namesake] ++ optional color ::
    [.reserve "Color", .reserve "Optional", .form "Optional", .type (.cls namesake)])

/-- The second class goes by its module, also when its name is kept for a contract afterwards. -/
theorem color_again : ((optional color).run world
      ((start world ClassId.modelNode).afterAll world [optional namesake])).1 =
        some "Optional[_app.Color]" ∧
    (∀ c, .cls c ∈ ((optional color).phrase world).mentions → world.Placed c) ∧
      (optional color).run world later = (some "Optional[_app.Color]", later) := by
  have hanswer : ((optional color).run world
      ((start world ClassId.modelNode).afterAll world [optional namesake])).1 =
        some "Optional[_app.Color]" := by decide +kernel
  have hplaced : ∀ c, .cls c ∈ ((optional color).phrase world).mentions → world.Placed c := by
    have hmentions : ((optional color).phrase world).mentions = [.form "Optional", .cls color] := by
      decide +kernel
    intro c hc
    rw [hmentions] at hc
    simp only [List.mem_cons, reduceCtorEq, List.not_mem_nil, or_false, false_or,
      Mention.cls.injEq] at hc
    exact Or.inr (Or.inl (by rw [hc]; decide +kernel))
  exact ⟨hanswer, hplaced, Demand.answered_again hanswer hplaced _⟩

end Namesakes

end ModelContracts
