import ModelContracts.Proofs.Reflection
import ModelContracts.Proofs.Synthesis.Naming

/-!
Contracts are never nested too deep. Each one that is opened on the way down is of another class, and
a class that leads to others is one that the world describes; so the described classes that have no
contract yet get fewer with each level, and they are fewer than the depth that is allowed.
-/

namespace ModelContracts

open EmissionError Draft Emitting

namespace Synthesizer

variable (s : Synthesizer)

theorem accepted_of_unknown {c : ClassId} {filter : PropertyFilter} {ds : List Descriptor}
    (hc : s.world.find? c = none) (h : s.accepted c filter = .ok ds) : ds = [] := by
  unfold accepted at h
  split at h
  · cases h
  next candidates hcandidates =>
    rw [s.world.candidates?_of_unknown hc hcandidates] at h
    cases h
    rfl

/-- The described classes that have no contract. -/
def unmet (d : Draft) : Nat := s.world.classes.countP fun info => !d.has info.id

/-- A run that stayed within the depth and left no more classes without a contract. -/
def StaysWithin {α : Type} (d : Draft) (out : Except EmissionError α × Draft) : Prop :=
  out.1 ≠ .error .tooDeep ∧ s.unmet out.2 ≤ s.unmet d

/-- The depth is enough for every run that starts with fewer than `n` such classes. -/
def Within {α : Type} (n : Nat) (m : Synthesis α) : Prop :=
  ∀ d, s.unmet d < n → s.StaysWithin d (m.run d)

variable {s}

namespace Within

variable {α β : Type} {n : Nat} {m : Synthesis α}

theorem of_same (hk : Keeps SameNamings m) (hf : FailsWith IsTextual m) : s.Within n m := by
  intro d _
  have hunmet : s.unmet (m.run d).2 = s.unmet d := by
    unfold unmet has
    rw [(hk d).2.1]
  exact ⟨fun h => hf (Prod.ext h rfl : m.run d = (_, (m.run d).2)), Nat.le_of_eq hunmet⟩

theorem bind_from {f : α → Synthesis β} {d : Draft} (hm : s.StaysWithin d (m.run d))
    (hd : s.unmet d < n) (hf : ∀ a, s.Within n (f a)) : s.StaysWithin d ((m >>= f).run d) := by
  obtain ⟨hne, hle⟩ := hm
  rw [run_bind]
  rcases h : m.run d with ⟨e | a, d₁⟩
  · rw [h] at hne hle
    exact ⟨fun he => hne (by cases he; rfl), hle⟩
  · rw [h] at hle
    obtain ⟨hne', hle'⟩ := hf a d₁ (Nat.lt_of_le_of_lt hle hd)
    exact ⟨hne', Nat.le_trans hle' hle⟩

theorem bind {f : α → Synthesis β} (hm : s.Within n m) (hf : ∀ a, s.Within n (f a)) :
    s.Within n (m >>= f) := fun d hd => bind_from (hm d hd) hd hf

theorem pure (a : α) : s.Within n (pure a) := of_same (.pure a) (.pure a)

end Within

section

variable {d d' : Draft} (h : ∀ c, d.has c = true → d'.has c = true)

include h

theorem countP_has_mono (l : List ClassInfo) :
    l.countP (fun info => !d'.has info.id) ≤ l.countP fun info => !d.has info.id := by
  refine List.countP_mono_left fun info _ hinfo => ?_
  rw [Bool.not_eq_true', Bool.eq_false_iff] at hinfo ⊢
  exact fun hhas => hinfo (h info.id hhas)

theorem unmet_mono : s.unmet d' ≤ s.unmet d := countP_has_mono h s.world.classes

/-- A described class that gets a contract is no longer without one. -/
theorem unmet_lt {c : ClassId} (hc : d.has c = false) (hc' : d'.has c = true)
    (hfind : s.world.find? c ≠ none) : s.unmet d' < s.unmet d := by
  obtain ⟨info, hinfo⟩ := Option.ne_none_iff_exists'.1 hfind
  have hid : info.id = c := by simpa using List.find?_some hinfo
  obtain ⟨before, after, hsplit⟩ := List.append_of_mem (List.mem_of_find?_eq_some hinfo)
  have hbefore := countP_has_mono h before
  have hafter := countP_has_mono h after
  simp only [unmet, hsplit, List.countP_append, List.countP_cons, hid, hc, hc', Bool.not_true,
    Bool.not_false, if_true, Bool.false_eq_true, if_false]
  omega

end

section

variable {c : Component} {around : Option String} {d d₁ : Draft} {a : Nat × String}
  (hr : (s.openContract c around).run d = (.ok a, d₁))

include hr

theorem unmet_openContract : s.unmet d₁ ≤ s.unmet d :=
  unmet_mono fun c' hc' => by rw [s.has_openContract hr, hc', Bool.or_true]

/-- Below a new contract there are fewer such classes, or the class leads nowhere. -/
theorem openContract_leaves {n : Nat} (hc : d.has c.type = false) (hd : s.unmet d < n + 1) :
    s.unmet d₁ < n ∨ s.world.find? c.type = none := by
  by_cases hfind : s.world.find? c.type = none
  · exact Or.inr hfind
  · have hlt : s.unmet d₁ < s.unmet d := by
      refine unmet_lt (fun c' hc' => ?_) hc ?_ hfind
      · rw [s.has_openContract hr, hc', Bool.or_true]
      · rw [s.has_openContract hr, decide_eq_true rfl, Bool.true_or]
    exact Or.inl (by omega)

end

section

variable (s)
variable {create : Component → Option String → Synthesis Nat} {n : Nat}

/-- With fewer than `n` classes left, the contract of a class that has none is derived within the
depth. -/
def Deep (n : Nat) (create : Component → Option String → Synthesis Nat) : Prop :=
  ∀ c around d, d.has c.type = false → s.unmet d < n →
    s.StaysWithin d ((create c around).run d)

theorem createNested_within (h : s.Deep n create) (c : Component) (name : String)
    (p : Descriptor) : s.Within n (s.createNested create c name p) := by
  unfold createNested
  cases s.nestedClass? p with
  | none => exact .pure _
  | some nested =>
    intro d hd
    dsimp only
    rw [run_bind, run_get]
    dsimp only
    cases hn : d.has nested with
    | true => exact Within.pure _ d hd
    | false => exact Within.bind_from (h _ _ d hn hd) hd fun _ => .pure _

theorem addMember_within (h : s.Deep n create) (c : Component) (place : Nat) (name : String)
    (p : Descriptor) : s.Within n (s.addMember create c place name p) := by
  refine (s.createNested_within h c name p).bind fun _ => .of_same ?_ ?_
  · refine Keeps.bind (fun d' => (s.member_keeps p d').sameNamings) fun m => ?_
    exact .modify fun d' => ⟨namings_addMember d' place m, rfl, rfl⟩
  · exact (s.member_textual p).bind fun m => .modify _

theorem addMembers_within (h : s.Deep n create) (c : Component) (place : Nat) (name : String)
    (ds : List Descriptor) (seen : List String) :
    s.Within n (s.addMembers create c place name ds seen) := by
  induction ds generalizing seen with
  | nil => exact .pure _
  | cons p rest ih =>
    unfold addMembers
    split_ifs
    · exact ih seen
    · exact (s.addMember_within h c place name p).bind fun _ => ih (p.name :: seen)

end

variable (s)

/-- One level more than what is enough below the contract. -/
theorem create_succ_within {fuel n : Nat} (hdeep : s.Deep n (s.create fuel)) {c : Component}
    {around : Option String} {d : Draft} (hopened : ∀ a d₁, (s.openContract c around).run d = (.ok a, d₁) →
      s.unmet d₁ < n ∨ s.world.find? c.type = none) :
    s.StaysWithin d ((s.create (fuel + 1) c around).run d) := by
  unfold create
  cases hr : d.rival? (s.contractName c.type around) c.type with
  | some other =>
    rw [run_bind_of_error (s.openContract_taken hr)]
    exact ⟨by simp, Nat.le_refl _⟩
  | none =>
    obtain ⟨k, e, -, -, -, hopen⟩ := s.openContract_free hr
    have hle := unmet_openContract hopen
    rw [run_bind_of_ok hopen]
    dsimp only
    rcases ha : s.accepted c.type c.filter with err | ds
    · refine ⟨fun he => ?_, hle⟩
      cases he
      exact accepted_textual ha
    rcases hopened _ _ hopen with hfew | hunknown
    · have hmembers := (s.addMembers_within hdeep c d.contracts.length
        (s.contractName c.type around) ds []).bind fun _ => Within.pure d.contracts.length
      obtain ⟨hne, hle'⟩ := hmembers _ hfew
      exact ⟨hne, Nat.le_trans hle' hle⟩
    · rw [s.accepted_of_unknown hunknown ha]
      exact ⟨by simp [addMembers, run_pure], hle⟩

theorem create_deep (fuel : Nat) : s.Deep fuel (s.create fuel) := by
  induction fuel with
  | zero =>
    intro c around d _ hd
    omega
  | succ fuel ih =>
    exact fun c around d hc hd => s.create_succ_within ih fun a d₁ hr => openContract_leaves hr hc hd

theorem addComponent_within (c : Component) : s.Within s.depth (s.addComponent c) := by
  refine Within.bind (.of_same (fun d => SameContracts.sameNamings ?_) ?_) fun _ => ?_
  · exact Keeps.forM (fun t => (emitting_keeps _).map) _ d
  · exact .forM (fun t => (s.type_textual t).map) _
  · intro d hd
    rw [run_bind, run_get]
    dsimp only
    split_ifs with hc
    · exact Within.of_same (fun d' => (emitting_keeps _ d').sameNamings)
        (Synthesis.emitting_failsWith (.of_ok fun _ => ⟨_, _, rfl⟩)) d hd
    · exact Within.bind_from (s.create_deep s.depth c none d (by simpa using hc) hd) hd fun _ =>
        .pure _

/-- A call always stays within the depth. -/
theorem synthesize_within (cs : List Component) (d : Draft) :
    ((s.synthesize cs).run d).1 ≠ .error .tooDeep := by
  have hadd : s.Within s.depth (cs.forM s.addComponent) := by
    induction cs with
    | nil => exact .pure _
    | cons c rest ih => exact (s.addComponent_within c).bind fun _ => ih
  have hall : s.Within s.depth (s.synthesize cs) := by
    refine hadd.bind fun _ => .of_same ?_ ?_
    · refine Keeps.bind (fun d' => (emitting_keeps _ d').sameNamings) fun _ => ?_
      exact Keeps.get.bind fun _ => .pure _
    · exact (Synthesis.emitting_failsWith (recording_textual _)).bind fun _ =>
        FailsWith.get.bind fun _ => .pure _
  have hfew : s.unmet d ≤ s.world.classes.length := List.countP_le_length
  exact (hall d (by unfold depth; omega)).1

end Synthesizer

end ModelContracts
