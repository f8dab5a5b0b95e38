import Mathlib.Data.List.Nodup
import ModelContracts.Annotation.RuleBook
import ModelContracts.Proofs.Running
import ModelContracts.World.Standard

/-!
Rule books that are opened, copied and filled. No book comes to hold two rules for one kind and way of
matching. A registration that is refused changes nothing; one that succeeds puts one rule in its place and
leaves the others in their order, so a marker that the rule does not match is translated as before, and so is
any marker that had a rule already when the new one stands last. A copy has rules of its own.
-/

namespace ModelContracts

namespace RuleBook

/-- What two rules of one book never share: a kind with the way of matching it. -/
def keys (b : RuleBook) : List (ClassId × Bool) := b.rules.map fun r => (r.kind, r.exact)

/-- Where a new rule is put: between the rules in front of it and those behind. -/
inductive Placed : Option ClassId → List Rule → List Rule → Prop
  | last (front : List Rule) : Placed none front []
  | before {front rest : List Rule} {r : Rule} (first : ∀ s ∈ front, s.kind ≠ r.kind) :
    Placed (some r.kind) front (r :: rest)

variable {w : World} {b b' : RuleBook} {q : RuleRequest} {r : Rule} {front back : List Rule}
  {m : Marker} {d : Descriptor}

theorem insertBefore_placed {kind : ClassId} {rules : List Rule} (h : rules.any (·.kind = kind) = true) :
    ∃ front back, rules = front ++ back ∧ Placed (some kind) front back ∧
      insertBefore kind r rules = front ++ r :: back := by
  induction rules with
  | nil => cases h
  | cons s rules ih =>
    rw [insertBefore]
    by_cases hs : s.kind = kind
    · subst hs
      rw [if_pos rfl]
      exact ⟨[], s :: rules, rfl, .before (by simp), rfl⟩
    · rw [if_neg hs]
      obtain ⟨front, back, rfl, hplaced, hinserted⟩ := ih (by simpa [hs] using h)
      refine ⟨s :: front, back, rfl, ?_, by rw [hinserted, List.cons_append]⟩
      cases hplaced with
      | before first =>
        refine .before fun t ht => ?_
        rcases List.mem_cons.1 ht with rfl | ht
        · exact hs
        · exact first t ht

/-- All that a registration can do when it succeeds. -/
theorem register_ok (h : b.register w q = .ok b') : ∃ kind front back,
    markerKind? w q.kind = some kind ∧ (kind, q.exact) ∉ b.keys ∧ b.rules = front ++ back ∧
      Placed q.before front back ∧
      b' = { b with rules := front ++ ⟨kind, q.exact, q.guard, q.emitter⟩ :: back } := by
  unfold register at h
  split at h
  · cases h
  next kind hkind =>
    dsimp only at h
    split_ifs at h with hrival
    have hnew : (kind, q.exact) ∉ b.keys := by
      intro hmem
      obtain ⟨s, hs, heq⟩ := List.mem_map.1 hmem
      obtain ⟨hskind, hsexact⟩ := Prod.mk.inj heq
      exact hrival (List.any_eq_true.2 ⟨s, hs, by simp [hskind, hsexact]⟩)
    cases hbefore : q.before with
    | none =>
      rw [hbefore] at h
      cases h
      exact ⟨kind, b.rules, [], hkind, hnew, (List.append_nil _).symm, .last _, rfl⟩
    | some c =>
      rw [hbefore] at h
      dsimp only at h
      split_ifs at h with hany
      cases h
      obtain ⟨front, back, hrules, hplaced, hinserted⟩ := insertBefore_placed hany
      exact ⟨kind, front, back, hkind, hnew, hrules, hplaced, by rw [hinserted]⟩

theorem register_keys (h : b.register w q = .ok b') (hb : b.keys.Nodup) : b'.keys.Nodup := by
  obtain ⟨kind, front, back, -, hnew, hrules, -, rfl⟩ := register_ok h
  unfold keys at hb hnew ⊢
  rw [hrules, List.map_append] at hb hnew
  rw [List.map_append, List.map_cons]
  exact List.nodup_middle.2 (List.nodup_cons.2 ⟨hnew, hb⟩)

/-- A rule that does not match is not found. -/
theorem find?_unmatched (hrules : b.rules = front ++ back) (h : r.applies w m d = false) :
    find? w { b with rules := front ++ r :: back } m d = find? w b m d := by
  have hskipped : (r :: back).find? (fun r => r.applies w m d) = back.find? fun r => r.applies w m d :=
    List.find?_cons_of_neg (by simp [h])
  rw [find?, find?, hrules, List.find?_append, List.find?_append, hskipped]

/-- A rule behind all others is found for no marker that had a rule already. -/
theorem find?_last (h : (find? w b m d).isSome = true) :
    find? w { b with rules := b.rules ++ [r] } m d = find? w b m d := by
  obtain ⟨s, hs⟩ := Option.isSome_iff_exists.1 h
  have hfirst : b.rules.find? (fun r => r.applies w m d) = some s := hs
  rw [hs, find?, List.find?_append, hfirst]
  rfl

end RuleBook

/-! Books side by side. -/

/-- The books that are open, in the order in which they were opened: each has a name, and the place where
its rules stand. -/
structure Shelf where
  rules : List (List Rule) := []
  books : List (String × Nat) := []

abbrev Shelving := ExceptT RuleError (StateM Shelf)

namespace Shelf

def book? (s : Shelf) (i : Nat) : Option RuleBook := do
  let (name, place) ← s.books[i]?
  let rules ← s.rules[place]?
  return { name, rules }

/-- Opens a book, with a place of its own for its rules. -/
def opening (b : RuleBook) : Shelving Unit :=
  modify fun s => { rules := s.rules ++ [b.rules], books := s.books ++ [(b.name, s.rules.length)] }

/-- Writes rules at the place of a book. -/
def rewriting (i : Nat) (rules : List Rule) : Shelving Unit :=
  modify fun s => match s.books[i]? with
    | some (_, place) => { s with rules := s.rules.set place rules }
    | none => s

def registering (w : World) (i : Nat) (q : RuleRequest) : Shelving Unit := do
  match (← get).book? i with
  | none => return ()
  | some b => match b.register w q with
    | .error e => throw e
    | .ok b => rewriting i b.rules

def copying (i : Nat) : Shelving Unit := do
  match (← get).book? i with
  | none => return ()
  | some b => opening b

inductive Call where
  | create (name : String)
  | register (w : World) (book : Nat) (q : RuleRequest)
  | copy (book : Nat)

def Call.run : Call → Shelving Unit
  | .create name => opening { name := name }
  | .register w i q => registering w i q
  | .copy i => copying i

/-- The books after some calls, whether they succeed or not. -/
def after (s : Shelf) (calls : List Call) : Shelf := calls.foldl (fun s c => (c.run.run s).2) s

/-- Each book has a place of its own, and holds no two rules for one kind and way of matching. -/
structure Sound (s : Shelf) : Prop where
  inside : ∀ b ∈ s.books, b.2 < s.rules.length
  apart : (s.books.map (·.2)).Nodup
  keys : ∀ i b, s.book? i = some b → b.keys.Nodup

variable {s t : Shelf} {b : RuleBook} {i j : Nat} {w : World} {q : RuleRequest} {e : RuleError}

theorem book?_eq_some : s.book? i = some b ↔
    ∃ place, s.books[i]? = some (b.name, place) ∧ s.rules[place]? = some b.rules := by
  unfold book?
  constructor
  · intro h
    obtain ⟨⟨name, place⟩, hbook, h⟩ := Option.bind_eq_some_iff.1 h
    obtain ⟨rules, hrules, h⟩ := Option.bind_eq_some_iff.1 h
    cases h
    exact ⟨place, hbook, hrules⟩
  · rintro ⟨place, hbook, hrules⟩
    exact Option.bind_eq_some_iff.2 ⟨_, hbook, Option.bind_eq_some_iff.2 ⟨_, hrules, rfl⟩⟩

theorem lt_of_book? (h : s.book? i = some b) : i < s.books.length := by
  obtain ⟨place, hbook, -⟩ := book?_eq_some.1 h
  exact (List.getElem?_eq_some_iff.1 hbook).1

theorem book?_none (h : s.books.length ≤ i) : s.book? i = none := by
  rw [book?, List.getElem?_eq_none h]
  rfl

/-! Opening. -/

/-- The shelf with one more book. -/
def opened (s : Shelf) (b : RuleBook) : Shelf :=
  { rules := s.rules ++ [b.rules], books := s.books ++ [(b.name, s.rules.length)] }

theorem opened_new (s : Shelf) (b : RuleBook) : (s.opened b).book? s.books.length = some b := by
  refine book?_eq_some.2 ⟨s.rules.length, ?_, ?_⟩
  · exact List.getElem?_concat_length
  · exact List.getElem?_concat_length

theorem opened_old (hs : s.Sound) (b : RuleBook) (h : j < s.books.length) :
    (s.opened b).book? j = s.book? j := by
  have hbook : (s.books ++ [(b.name, s.rules.length)])[j]? = some s.books[j] := by
    rw [List.getElem?_append_left h, List.getElem?_eq_getElem h]
  have hplace : (s.rules ++ [b.rules])[s.books[j].2]? = s.rules[s.books[j].2]? :=
    List.getElem?_append_left (hs.inside _ (List.getElem_mem h))
  unfold book? opened
  rw [hbook, List.getElem?_eq_getElem h]
  dsimp only [Option.bind_eq_bind, Option.bind_some]
  rw [hplace]

theorem Sound.opened (hs : s.Sound) (hb : b.keys.Nodup) : (s.opened b).Sound where
  inside c hc := by
    rw [Shelf.opened, List.length_append, List.length_singleton]
    rcases List.mem_append.1 hc with hc | hc
    · exact Nat.lt_succ_of_lt (hs.inside c hc)
    · rw [List.mem_singleton.1 hc]
      exact Nat.lt_succ_self _
  apart := by
    rw [Shelf.opened, List.map_append, List.map_singleton, List.nodup_append]
    refine ⟨hs.apart, List.nodup_singleton _, fun place hplace other hother => ?_⟩
    obtain ⟨c, hc, rfl⟩ := List.mem_map.1 hplace
    rw [List.mem_singleton.1 hother]
    exact Nat.ne_of_lt (hs.inside c hc)
  keys j c hj := by
    have hlt := lt_of_book? hj
    rw [Shelf.opened, List.length_append, List.length_singleton] at hlt
    rcases Nat.lt_or_eq_of_le (Nat.le_of_lt_succ hlt) with hlt | rfl
    · rw [opened_old hs b hlt] at hj
      exact hs.keys j c hj
    · rw [opened_new] at hj
      cases hj
      exact hb

/-! Writing. -/

/-- The shelf with other rules at a place. -/
def rewritten (s : Shelf) (place : Nat) (rules : List Rule) : Shelf :=
  { s with rules := s.rules.set place rules }

theorem rewritten_own {name : String} {place : Nat} (hbook : s.books[i]? = some (name, place))
    (hplace : place < s.rules.length) (rules : List Rule) :
    (s.rewritten place rules).book? i = some { name := name, rules := rules } :=
  book?_eq_some.2 ⟨place, hbook, List.getElem?_set_self hplace⟩

theorem rewritten_other (hs : s.Sound) {name : String} {place : Nat}
    (hbook : s.books[i]? = some (name, place)) (h : j ≠ i) (rules : List Rule) :
    (s.rewritten place rules).book? j = s.book? j := by
  unfold book? rewritten
  cases hother : s.books[j]? with
  | none => rfl
  | some c =>
    have hne : place ≠ c.2 := by
      rintro rfl
      obtain ⟨hi, hib⟩ := List.getElem?_eq_some_iff.1 hbook
      obtain ⟨hj, hjc⟩ := List.getElem?_eq_some_iff.1 hother
      have hi' : i < (s.books.map (·.2)).length := by rwa [List.length_map]
      have hj' : j < (s.books.map (·.2)).length := by rwa [List.length_map]
      have hsame : (s.books.map (·.2))[j] = (s.books.map (·.2))[i] := by
        rw [List.getElem_map, List.getElem_map, hib, hjc]
      exact h (hs.apart.getElem_inj_iff.1 hsame)
    dsimp only [Option.bind_eq_bind, Option.bind_some]
    rw [List.getElem?_set_ne hne]

theorem Sound.rewritten (hs : s.Sound) {name : String} {place : Nat}
    (hbook : s.books[i]? = some (name, place)) {rules : List Rule}
    (hrules : (rules.map fun r => (r.kind, r.exact)).Nodup) : (s.rewritten place rules).Sound where
  inside c hc := by
    rw [Shelf.rewritten, List.length_set]
    exact hs.inside c hc
  apart := hs.apart
  keys j c hj := by
    by_cases h : j = i
    · subst h
      rw [rewritten_own hbook (hs.inside _ (List.mem_of_getElem? hbook))] at hj
      cases hj
      exact hrules
    · rw [rewritten_other hs hbook h] at hj
      exact hs.keys j c hj

/-! Calls. -/

theorem copying_run (h : s.book? i = some b) : (copying i).run s = (.ok (), s.opened b) := by
  unfold copying
  rw [run_bind_of_ok (run_get s), h]
  rfl

theorem copying_missing (h : s.book? i = none) : (copying i).run s = (.ok (), s) := by
  unfold copying
  rw [run_bind_of_ok (run_get s), h]
  rfl

theorem registering_missing (h : s.book? i = none) : (registering w i q).run s = (.ok (), s) := by
  unfold registering
  rw [run_bind_of_ok (run_get s), h]
  rfl

/-- A registration that is refused changes nothing. -/
theorem registering_refused (h : s.book? i = some b) (he : b.register w q = .error e) :
    (registering w i q).run s = (.error e, s) := by
  unfold registering
  rw [run_bind_of_ok (run_get s), h]
  dsimp only
  rw [he]
  rfl

theorem registering_done (h : s.book? i = some b) {place : Nat} (hbook : s.books[i]? = some (b.name, place))
    {b' : RuleBook} (hb' : b.register w q = .ok b') :
    (registering w i q).run s = (.ok (), s.rewritten place b'.rules) := by
  unfold registering rewriting
  rw [run_bind_of_ok (run_get s), h]
  dsimp only
  rw [hb', run_modify, hbook]
  rfl

/-- What one call does to a sound shelf: it stays sound, keeps its books, and only a registration changes
one of them, the book that it is about. -/
theorem Sound.call (hs : s.Sound) (c : Call) : (c.run.run s).2.Sound ∧
    s.books.length ≤ (c.run.run s).2.books.length ∧
    ∀ j < s.books.length, (∀ w q, c ≠ .register w j q) → (c.run.run s).2.book? j = s.book? j := by
  cases c with
  | create name =>
    refine ⟨hs.opened (b := { name := name }) List.nodup_nil, ?_, fun j hj _ => opened_old hs _ hj⟩
    exact (List.length_append ..).symm ▸ Nat.le_add_right ..
  | copy i =>
    rw [Call.run]
    cases h : s.book? i with
    | none =>
      rw [copying_missing h]
      exact ⟨hs, Nat.le_refl _, fun _ _ _ => rfl⟩
    | some b =>
      rw [copying_run h]
      refine ⟨hs.opened (hs.keys i b h), ?_, fun j hj _ => opened_old hs b hj⟩
      exact (List.length_append ..).symm ▸ Nat.le_add_right ..
  | register w i q =>
    rw [Call.run]
    cases h : s.book? i with
    | none =>
      rw [registering_missing h]
      exact ⟨hs, Nat.le_refl _, fun _ _ _ => rfl⟩
    | some b =>
      obtain ⟨place, hbook, -⟩ := book?_eq_some.1 h
      cases hb' : b.register w q with
      | error e =>
        rw [registering_refused h hb']
        exact ⟨hs, Nat.le_refl _, fun _ _ _ => rfl⟩
      | ok b' =>
        rw [registering_done h hbook hb']
        refine ⟨hs.rewritten hbook (RuleBook.register_keys hb' (hs.keys i b h)), Nat.le_refl _, fun j _ hj => ?_⟩
        refine rewritten_other hs hbook ?_ _
        rintro rfl
        exact hj w q rfl

/-- What a whole run does: the shelf stays sound, and a book changes only by registrations in it. -/
theorem Sound.after (hs : s.Sound) (calls : List Call) : (s.after calls).Sound ∧
    ∀ j < s.books.length, (∀ c ∈ calls, ∀ w q, c ≠ .register w j q) →
      (s.after calls).book? j = s.book? j := by
  induction calls generalizing s with
  | nil => exact ⟨hs, fun _ _ _ => rfl⟩
  | cons c calls ih =>
    obtain ⟨hnext, hlength, hkept⟩ := hs.call c
    obtain ⟨hsound, hlater⟩ := ih hnext
    refine ⟨hsound, fun j hj hcalls => ?_⟩
    obtain ⟨hc, hrest⟩ := List.forall_mem_cons.1 hcalls
    exact (hlater j (Nat.lt_of_lt_of_le hj hlength) hrest).trans (hkept j hj hc)

theorem sound_empty : ({} : Shelf).Sound :=
  ⟨by simp, List.nodup_nil, fun i b h => by rw [book?_none (Nat.zero_le i)] at h; cases h⟩

/-- What becomes of rule books under any calls that open, copy and fill them, of which some may be refused. No
book ever holds two rules for one kind and way of matching. A registration that is refused leaves all as it
was. One that succeeds puts one rule at the end, or just before the first rule of the given kind, and leaves
the others in their order; markers that the new rule does not match are translated by the rule that was found
before, and so are all markers that had a rule when the new one stands at the end. A copy holds what its
original holds. No book changes but by a registration in it. -/
theorem registrations (calls : List Call) :
    (∀ i b, (after {} calls).book? i = some b → b.keys.Nodup) ∧
    (∀ i b w q e t, (after {} calls).book? i = some b →
      (registering w i q).run (after {} calls) = (.error e, t) → t = after {} calls) ∧
    (∀ i b w q t, (after {} calls).book? i = some b →
      (registering w i q).run (after {} calls) = (.ok (), t) → ∃ kind front back,
        RuleBook.markerKind? w q.kind = some kind ∧ b.rules = front ++ back ∧
        RuleBook.Placed q.before front back ∧
        t.book? i = some { b with rules := front ++ ⟨kind, q.exact, q.guard, q.emitter⟩ :: back } ∧
        (∀ j, j ≠ i → t.book? j = (after {} calls).book? j) ∧
        ∀ v m d b', t.book? i = some b' →
          (Rule.applies v ⟨kind, q.exact, q.guard, q.emitter⟩ m d = false →
            b'.find? v m d = b.find? v m d) ∧
          (q.before = none → (b.find? v m d).isSome = true → b'.find? v m d = b.find? v m d)) ∧
    (∀ i b, (after {} calls).book? i = some b → ∃ t,
      (copying i).run (after {} calls) = (.ok (), t) ∧
        t.book? (after {} calls).books.length = some b ∧
        ∀ j < (after {} calls).books.length, t.book? j = (after {} calls).book? j) ∧
    ∀ later j, j < (after {} calls).books.length → (∀ c ∈ later, ∀ w q, c ≠ .register w j q) →
      (after {} (calls ++ later)).book? j = (after {} calls).book? j := by
  have hsound := (sound_empty.after calls).1
  generalize hs : after {} calls = s at hsound
  refine ⟨hsound.keys, fun i b w q e t hb hrun => ?_, fun i b w q t hb hrun => ?_, fun i b hb => ?_,
    fun later j hj hlater => ?_⟩
  · cases hb' : b.register w q with
    | error e' =>
      rw [registering_refused hb hb'] at hrun
      exact (Prod.mk.inj hrun).2.symm
    | ok b' =>
      obtain ⟨place, hbook, -⟩ := book?_eq_some.1 hb
      rw [registering_done hb hbook hb'] at hrun
      cases hrun
  · cases hb' : b.register w q with
    | error e' =>
      rw [registering_refused hb hb'] at hrun
      cases hrun
    | ok b' =>
      obtain ⟨place, hbook, -⟩ := book?_eq_some.1 hb
      obtain ⟨kind, front, back, hkind, -, hrules, hplaced, rfl⟩ := RuleBook.register_ok hb'
      rw [registering_done hb hbook hb'] at hrun
      obtain rfl := (Prod.mk.inj hrun).2
      have hown := rewritten_own hbook (hsound.inside _ (List.mem_of_getElem? hbook))
        (front ++ ⟨kind, q.exact, q.guard, q.emitter⟩ :: back)
      refine ⟨kind, front, back, hkind, hrules, hplaced, hown,
        fun j hj => rewritten_other hsound hbook hj _, fun v m d b'' hb'' => ?_⟩
      rw [hown] at hb''
      obtain rfl := Option.some.inj hb''
      refine ⟨RuleBook.find?_unmatched hrules, fun hlast hfound => ?_⟩
      rw [hlast] at hplaced
      cases hplaced
      rw [List.append_nil] at hrules
      rw [← hrules]
      exact RuleBook.find?_last hfound
  · exact ⟨_, copying_run hb, opened_new s b, fun j hj => opened_old hsound b hj⟩
  · have hsplit : after {} (calls ++ later) = s.after later := by
      rw [← hs, after, after, after, List.foldl_append]
    rw [hsplit]
    exact (hsound.after later).2 j hj hlater

/-- The stock rules are registered one after the other. -/
example : (after {} (.create "attribute" :: RuleBook.stock.rules.map fun r => .register World.standard 0
    { kind := .type (.cls r.kind), exact := r.exact, guard := r.guard, emitter := r.emitter })).book? 0 =
      some RuleBook.stock := by rfl

end Shelf

namespace Shelves

def category : ClassId := MarkerShape.category.kind

def world : World := { classes := [Standard.markerClass .category], modules := [] }

/-- Asks for a rule for categories. -/
def request (exact : Bool) (before : Option ClassId) : RuleRequest :=
  { kind := .type (.cls category), exact := exact, guard := .always, emitter := .ownCall, before := before }

/-- A book with one rule, and a copy of it. -/
def calls : List Shelf.Call := [.create "attribute", .register world 0 (request true none), .copy 0]

def shelf : Shelf := Shelf.after {} calls

/-- A second rule is put in front in the copy alone, and the first one is not taken twice. -/
theorem copy_filled : ∃ b t e, shelf.book? 0 = some b ∧ shelf.book? 1 = some b ∧ b.keys.Nodup ∧
    (Shelf.registering world 1 (request false (some category))).run shelf = (.ok (), t) ∧
    (t.book? 1).map RuleBook.keys = some [(category, false), (category, true)] ∧
    t.book? 0 = shelf.book? 0 ∧
    (Shelf.registering world 1 (request true none)).run shelf = (.error e, shelf) := by
  obtain ⟨hkeys, hrefused, hdone, -, -⟩ := Shelf.registrations calls
  have horiginal : shelf.book? 0 = some
      { name := "attribute", rules := [⟨category, true, .always, .ownCall⟩] } := by rfl
  have hcopy : shelf.book? 1 = some
      { name := "attribute", rules := [⟨category, true, .always, .ownCall⟩] } := by rfl
  obtain ⟨t, ht, hboth⟩ : ∃ t,
      (Shelf.registering world 1 (request false (some category))).run shelf = (.ok (), t) ∧
        (t.book? 1).map RuleBook.keys = some [(category, false), (category, true)] :=
    ⟨_, by rfl, by rfl⟩
  obtain ⟨e, u, hu⟩ : ∃ e u, (Shelf.registering world 1 (request true none)).run shelf = (.error e, u) :=
    ⟨_, _, by rfl⟩
  obtain ⟨kind, front, back, -, -, -, -, hothers, -⟩ := hdone 1 _ world _ t hcopy ht
  obtain rfl := hrefused 1 _ world _ e u hcopy hu
  exact ⟨_, t, e, horiginal, hcopy, hkeys 0 _ horiginal, ht, hboth, hothers 0 (by decide), hu⟩

end Shelves

end ModelContracts
