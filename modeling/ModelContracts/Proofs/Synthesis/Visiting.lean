import Mathlib.Data.List.Perm.Subperm
import ModelContracts.Proofs.Synthesis.Depth
import ModelContracts.Proofs.Synthesis.Filling

/-!
The contracts that a derivation starts. Classes may lead to each other in circles, but a contract is only
started below another one for a class that has none, and the class has it before anything else is started.
So the derivation ends, with the same result for every depth that is large enough. A call starts one
contract at most for each class that its components lead to, and when it succeeds it has added as many
contracts as it has started.
-/

namespace ModelContracts

open EmissionError Draft Emitting

/-- A contract that is started: for which component, below which other contract, and in what draft. -/
structure Visit where
  component : Component
  around : Option String
  before : Draft

def Visit.cls (v : Visit) : ClassId := v.component.type

/-- Another class has the name of the contract. -/
def Visit.refused (s : Synthesizer) (v : Visit) : Bool :=
  (v.before.rival? (s.contractName v.cls v.around) v.cls).isSome

def Draft.backings (d : Draft) : List ClassId := d.contracts.map (·.backing)

theorem Draft.SameNamings.backings {d d' : Draft} (h : SameNamings d d') : d'.backings = d.backings := by
  have hfst : ∀ d : Draft, d.backings = d.namings.map Prod.fst := fun d => by
    simp [Draft.backings, namings]
  rw [hfst, h.1, hfst]

theorem Draft.SameNamings.has {d d' : Draft} (h : SameNamings d d') (c : ClassId) : d'.has c = d.has c := by
  rw [Draft.has, h.2.1, Draft.has]

namespace Synthesizer

variable (s : Synthesizer)

/-- The contracts that are started while one is derived, this one first. -/
def visitsCreate : Nat → Component → Option String → Draft → List Visit
  | 0, _, _, _ => []
  | fuel + 1, c, around, d =>
    ⟨c, around, d⟩ ::
      askedAfter (fun (place, name) d' =>
        match s.accepted c.type c.filter with
        | .ok ds => s.askedMembers (s.create fuel) (visitsCreate fuel) c place name ds [] d'
        | .error _ => []) ((s.openContract c around).run d)

def visitsComponent (c : Component) (d : Draft) : List Visit :=
  askedAfter (fun _ d' => if d'.has c.type then [] else s.visitsCreate s.depth c none d')
    ((c.referenceTypes.forM fun t => discard (s.type t)).run d)

/-- The contracts that one call starts, in order. -/
def visits : List Component → Draft → List Visit
  | [], _ => []
  | c :: rest, d =>
    s.visitsComponent c d ++ askedAfter (fun _ d' => visits rest d') ((s.addComponent c).run d)

/-! What is started one after the other. -/

/-- How a run ends that started contracts: no class lost its contract, each class had one before the next
contract was started, and all that were not refused are new on the list. -/
structure Trail {α : Type} (d : Draft) (vs : List Visit) (out : Except EmissionError α × Draft) : Prop where
  kept : ∀ c, d.has c = true → out.2.has c = true
  known : ∀ v ∈ vs, ∀ c, d.has c = true → v.before.has c = true
  ordered : vs.Pairwise fun v v' => v'.before.has v.cls = true
  settled : out.1.isOk = true → ∀ v ∈ vs, out.2.has v.cls = true ∧ v.refused s = false
  backings : out.2.backings = d.backings ++ (vs.filter (!·.refused s)).map Visit.cls

variable {s}

namespace Trail

variable {α β : Type} {d : Draft} {m : Synthesis α}

theorem of_same (hk : Keeps SameNamings m) : s.Trail d [] (m.run d) where
  kept c hc := by rwa [(hk d).has]
  known := by simp
  ordered := .nil
  settled := by simp
  backings := by simp [(hk d).backings]

theorem bind {f : α → Synthesis β} {l : List Visit} {l' : α → Draft → List Visit}
    (hm : s.Trail d l (m.run d))
    (hf : ∀ a d₁, m.run d = (.ok a, d₁) → s.Trail d₁ (l' a d₁) ((f a).run d₁)) :
    s.Trail d (l ++ askedAfter l' (m.run d)) ((m >>= f).run d) := by
  rw [run_bind]
  rcases h : m.run d with ⟨e | a, d₁⟩
  · rw [h] at hm
    dsimp only [askedAfter]
    rw [List.append_nil]
    exact ⟨hm.kept, hm.known, hm.ordered, fun hok => (by cases hok), hm.backings⟩
  · rw [h] at hm
    have hg := hf a d₁ h
    dsimp only [askedAfter]
    constructor
    case kept => exact fun c hc => hg.kept c (hm.kept c hc)
    case known =>
      intro v hv c hc
      rcases List.mem_append.1 hv with hv | hv
      · exact hm.known v hv c hc
      · exact hg.known v hv c (hm.kept c hc)
    case ordered =>
      refine List.pairwise_append.2 ⟨hm.ordered, hg.ordered, fun v hv v' hv' => ?_⟩
      exact hg.known v' hv' v.cls (hm.settled rfl v hv).1
    case settled =>
      intro hok v hv
      rcases List.mem_append.1 hv with hv | hv
      · obtain ⟨hhas, hfree⟩ := hm.settled rfl v hv
        exact ⟨hg.kept v.cls hhas, hfree⟩
      · exact hg.settled hok v hv
    case backings =>
      rw [hg.backings, hm.backings, List.filter_append, List.map_append, List.append_assoc]

theorem bind_same {f : α → Synthesis β} {l : List Visit} (hm : s.Trail d l (m.run d))
    (hk : ∀ a, Keeps SameNamings (f a)) : s.Trail d l ((m >>= f).run d) := by
  have h : s.Trail d (l ++ askedAfter (fun _ _ => []) (m.run d)) ((m >>= f).run d) :=
    hm.bind fun a d₁ _ => of_same (hk a)
  rwa [askedAfter_nil, List.append_nil] at h

end Trail

/-- Deriving a contract starts what it is said to. -/
def Traces (s : Synthesizer) (create : Component → Option String → Synthesis Nat)
    (visits : Component → Option String → Draft → List Visit) : Prop :=
  ∀ c around d, s.Trail d (visits c around d) ((create c around).run d)

section

variable {create : Component → Option String → Synthesis Nat}
  {visits : Component → Option String → Draft → List Visit}

theorem trail_createNested (h : s.Traces create visits) (c : Component) (name : String) (p : Descriptor)
    (d : Draft) : s.Trail d (s.askedNested visits c name p d) ((s.createNested create c name p).run d) := by
  unfold createNested askedNested
  cases s.nestedClass? p with
  | none => exact .of_same (.pure _)
  | some nested =>
    dsimp only
    rw [run_bind, run_get]
    dsimp only
    cases d.has nested with
    | true => exact .of_same (.pure _)
    | false => exact (h _ _ d).bind_same fun _ => .pure _

theorem trail_addMember (h : s.Traces create visits) (c : Component) (place : Nat) (name : String)
    (p : Descriptor) (d : Draft) :
    s.Trail d (s.askedNested visits c name p d) ((s.addMember create c place name p).run d) := by
  refine (trail_createNested h c name p d).bind_same fun _ => ?_
  refine Keeps.bind (fun d' => (s.member_keeps p d').sameNamings) fun m => ?_
  exact .modify fun d' => ⟨namings_addMember d' place m, rfl, rfl⟩

theorem trail_addMembers (h : s.Traces create visits) (c : Component) (place : Nat) (name : String)
    (ds : List Descriptor) (seen : List String) (d : Draft) :
    s.Trail d (s.askedMembers create visits c place name ds seen d)
      ((s.addMembers create c place name ds seen).run d) := by
  induction ds generalizing seen d with
  | nil => exact .of_same (.pure _)
  | cons p rest ih =>
    unfold addMembers askedMembers
    split_ifs
    · exact ih seen d
    · exact (trail_addMember h c place name p d).bind fun _ d₁ _ => ih (p.name :: seen) d₁

end

/-- Opening a contract starts it: its class has it from then on, unless the name is refused. -/
theorem trail_openContract (c : Component) (around : Option String) (d : Draft) :
    s.Trail d [⟨c, around, d⟩] ((s.openContract c around).run d) := by
  cases hr : d.rival? (s.contractName c.type around) c.type with
  | some other =>
    have hrefused : Visit.refused s ⟨c, around, d⟩ = true := by simp [Visit.refused, Visit.cls, hr]
    rw [s.openContract_taken hr]
    exact ⟨fun _ => id, by simp, List.pairwise_singleton .., fun hok => (by cases hok), by simp [hrefused]⟩
  | none =>
    have hfree : Visit.refused s ⟨c, around, d⟩ = false := by simp [Visit.refused, Visit.cls, hr]
    obtain ⟨k, e, hback, -, -, hopen⟩ := s.openContract_free hr
    have hhas := s.has_openContract hopen
    rw [hopen]
    constructor
    case kept => exact fun c' hc' => by rw [hhas, hc', Bool.or_true]
    case known => simp
    case ordered => exact List.pairwise_singleton ..
    case settled =>
      intro _ v hv
      rw [List.mem_singleton.1 hv]
      exact ⟨by rw [hhas, Visit.cls, decide_eq_true rfl, Bool.true_or], hfree⟩
    case backings => simp [backings, hfree, hback, Visit.cls]

variable (s)

theorem trail_create (fuel : Nat) : s.Traces (s.create fuel) (s.visitsCreate fuel) := by
  induction fuel with
  | zero =>
    intro c around d
    exact .of_same (.throw _)
  | succ fuel ih =>
    intro c around d
    refine (trail_openContract c around d).bind fun ⟨place, name⟩ d₁ _ => ?_
    dsimp only
    rcases s.accepted c.type c.filter with e | ds
    · exact .of_same (.throw _)
    · exact (trail_addMembers ih c place name ds [] d₁).bind_same fun _ => .pure _

theorem trail_addComponent (c : Component) (d : Draft) :
    s.Trail d (s.visitsComponent c d) ((s.addComponent c).run d) := by
  have hwrite : s.Trail d [] ((c.referenceTypes.forM fun t => discard (s.type t)).run d) :=
    .of_same fun d' => SameContracts.sameNamings (Keeps.forM (fun t => (emitting_keeps _).map) _ d')
  rw [← List.nil_append (s.visitsComponent c d)]
  refine hwrite.bind fun _ d₁ _ => ?_
  rw [run_bind, run_get]
  dsimp only
  split_ifs
  · exact .of_same fun d' => (emitting_keeps _ d').sameNamings
  · exact (s.trail_create s.depth c none d₁).bind_same fun _ => .pure _

theorem trail_addComponents (cs : List Component) (d : Draft) :
    s.Trail d (s.visits cs d) ((cs.forM s.addComponent).run d) := by
  induction cs generalizing d with
  | nil => exact .of_same (.pure _)
  | cons c rest ih => exact (s.trail_addComponent c d).bind fun _ d₁ _ => ih d₁

theorem trail_synthesize (cs : List Component) (d : Draft) :
    s.Trail d (s.visits cs d) ((s.synthesize cs).run d) := by
  refine (s.trail_addComponents cs d).bind_same fun _ => ?_
  refine Keeps.bind (fun d' => (emitting_keeps _ d').sameNamings) fun _ => ?_
  exact Keeps.get.bind fun _ => .pure _

/-! Which contracts are started below another one. -/

variable {s}

/-- A contract that is started because of a component: for a class that has none, and to which the class of
the component leads. -/
structure Entered (s : Synthesizer) (c : Component) (v : Visit) : Prop where
  fresh : v.before.has v.cls = false
  filter : v.component.filter = c.filter
  reached : Relation.ReflTransGen (s.Refers c.filter) c.type v.cls

/-- The first contract that is started is the one to derive, and the others are below it. -/
theorem visitsCreate_entered {fuel : Nat} {c : Component} {around : Option String} {d : Draft} :
    (∀ v ∈ s.visitsCreate fuel c around d, v = ⟨c, around, d⟩ ∨ s.Entered c v) ∧
      ∀ v ∈ (s.visitsCreate fuel c around d).tail, s.Entered c v := by
  induction fuel generalizing c around d with
  | zero => exact ⟨by simp [visitsCreate], by simp [visitsCreate]⟩
  | succ fuel ih =>
    have htail : ∀ v ∈ (s.visitsCreate (fuel + 1) c around d).tail, s.Entered c v := by
      intro v hv
      obtain ⟨⟨place, name⟩, -, hv⟩ := mem_askedAfter hv
      dsimp only at hv
      split at hv
      next ds hds =>
        obtain ⟨p, hp, nested, d', hclass, hfresh, hv⟩ := mem_askedMembers hv
        have hrefers : s.Refers c.filter c.type nested := ⟨ds, p, hds, hp, hclass⟩
        rcases ih.1 v hv with rfl | hentered
        · exact ⟨hfresh, rfl, .single hrefers⟩
        · exact ⟨hentered.fresh, hentered.filter, hentered.reached.head hrefers⟩
      · cases hv
    refine ⟨fun v hv => ?_, htail⟩
    rcases List.mem_cons.1 hv with rfl | hv
    · exact Or.inl rfl
    · exact Or.inr (htail v hv)

theorem visitsComponent_entered {c : Component} {d : Draft} {v : Visit}
    (hv : v ∈ s.visitsComponent c d) : s.Entered c v := by
  obtain ⟨_, -, hv⟩ := mem_askedAfter hv
  split_ifs at hv with hhas
  · cases hv
  rcases visitsCreate_entered.1 v hv with rfl | hentered
  · exact ⟨Bool.eq_false_iff.2 hhas, rfl, .refl⟩
  · exact hentered

theorem visits_entered {cs : List Component} {d : Draft} {v : Visit} (hv : v ∈ s.visits cs d) :
    ∃ c ∈ cs, s.Entered c v := by
  induction cs generalizing d with
  | nil => cases hv
  | cons c rest ih =>
    rcases List.mem_append.1 hv with hv | hv
    · exact ⟨c, List.mem_cons_self, visitsComponent_entered hv⟩
    · obtain ⟨_, -, hv⟩ := mem_askedAfter hv
      obtain ⟨c', hc', hentered⟩ := ih hv
      exact ⟨c', List.mem_cons_of_mem c hc', hentered⟩

/-! The depth does not matter when it is large enough. -/

/-- With fewer than `n` described classes without a contract, both ways to derive contracts start the same
ones and end alike. -/
def Alike (s : Synthesizer) (n fuel fuel' : Nat) : Prop :=
  ∀ c around d, d.has c.type = false → s.unmet d < n →
    (s.create fuel c around).run d = (s.create fuel' c around).run d ∧
      s.visitsCreate fuel c around d = s.visitsCreate fuel' c around d

section

variable {n fuel fuel' : Nat}

theorem create_deep_of_le (h : n ≤ fuel) : s.Deep n (s.create fuel) :=
  fun c around d hc hd => s.create_deep fuel c around d hc (Nat.lt_of_lt_of_le hd h)

theorem Alike.addMember (h : s.Alike n fuel fuel') (c : Component) (place : Nat) (name : String)
    (p : Descriptor) {d : Draft} (hd : s.unmet d < n) :
    (s.addMember (s.create fuel) c place name p).run d =
        (s.addMember (s.create fuel') c place name p).run d ∧
      s.askedNested (s.visitsCreate fuel) c name p d = s.askedNested (s.visitsCreate fuel') c name p d := by
  have hnested : (s.createNested (s.create fuel) c name p).run d =
      (s.createNested (s.create fuel') c name p).run d ∧
      s.askedNested (s.visitsCreate fuel) c name p d = s.askedNested (s.visitsCreate fuel') c name p d := by
    unfold createNested askedNested
    cases s.nestedClass? p with
    | none => exact ⟨rfl, rfl⟩
    | some nested =>
      dsimp only
      rw [run_bind, run_bind, run_get]
      dsimp only
      cases hhas : d.has nested with
      | true => exact ⟨rfl, rfl⟩
      | false =>
        obtain ⟨hrun, hvisits⟩ := h (nestedComponent c nested) (some name) d hhas hd
        refine ⟨?_, hvisits⟩
        simp only [Bool.not_false, if_true]
        rw [run_bind, run_bind, hrun]
  refine ⟨?_, hnested.2⟩
  rw [Synthesizer.addMember, Synthesizer.addMember, run_bind, run_bind, hnested.1]

theorem Alike.addMembers (h : s.Alike n fuel fuel') (hdeep : s.Deep n (s.create fuel)) (c : Component)
    (place : Nat) (name : String) (ds : List Descriptor) (seen : List String) {d : Draft}
    (hd : s.unmet d < n) :
    (s.addMembers (s.create fuel) c place name ds seen).run d =
        (s.addMembers (s.create fuel') c place name ds seen).run d ∧
      s.askedMembers (s.create fuel) (s.visitsCreate fuel) c place name ds seen d =
        s.askedMembers (s.create fuel') (s.visitsCreate fuel') c place name ds seen d := by
  induction ds generalizing seen d with
  | nil => exact ⟨rfl, rfl⟩
  | cons p rest ih =>
    unfold Synthesizer.addMembers askedMembers
    split_ifs
    · exact ih seen hd
    obtain ⟨hrun, hvisits⟩ := h.addMember c place name p hd
    have hwithin := (s.addMember_within hdeep c place name p d hd).2
    rw [run_bind, run_bind, ← hrun, hvisits]
    rcases hr : (s.addMember (s.create fuel) c place name p).run d with ⟨e | _, d₁⟩
    · exact ⟨rfl, rfl⟩
    · rw [hr] at hwithin
      obtain ⟨hruns, hvisits'⟩ := ih (p.name :: seen) (Nat.lt_of_le_of_lt hwithin hd)
      refine ⟨hruns, ?_⟩
      dsimp only [askedAfter]
      rw [hvisits']

/-- One level more in both: below the contract there are fewer such classes, or there is nothing. -/
theorem Alike.succ (h : s.Alike n fuel fuel') (hfuel : n ≤ fuel) {c : Component} {around : Option String}
    {d : Draft} (hopened : ∀ a d₁, (s.openContract c around).run d = (.ok a, d₁) →
      s.unmet d₁ < n ∨ s.world.find? c.type = none) :
    (s.create (fuel + 1) c around).run d = (s.create (fuel' + 1) c around).run d ∧
      s.visitsCreate (fuel + 1) c around d = s.visitsCreate (fuel' + 1) c around d := by
  unfold create visitsCreate
  rw [run_bind, run_bind]
  rcases hr : (s.openContract c around).run d with ⟨e | ⟨place, name⟩, d₁⟩
  · exact ⟨rfl, rfl⟩
  dsimp only [askedAfter]
  rcases ha : s.accepted c.type c.filter with e | ds
  · exact ⟨rfl, rfl⟩
  dsimp only
  rcases hopened _ d₁ hr with hfew | hunknown
  · obtain ⟨hrun, hvisits⟩ := h.addMembers (create_deep_of_le hfuel) c place name ds [] hfew
    rw [run_bind, run_bind, hrun, hvisits]
    exact ⟨rfl, rfl⟩
  · rw [s.accepted_of_unknown hunknown ha]
    exact ⟨rfl, rfl⟩

end

theorem create_alike {n fuel fuel' : Nat} (hfuel : n ≤ fuel) (hfuel' : n ≤ fuel') :
    s.Alike n fuel fuel' := by
  induction n generalizing fuel fuel' with
  | zero =>
    intro c around d _ hd
    omega
  | succ n ih =>
    obtain ⟨fuel, rfl⟩ := Nat.exists_eq_add_of_le' (Nat.lt_of_lt_of_le n.succ_pos hfuel)
    obtain ⟨fuel', rfl⟩ := Nat.exists_eq_add_of_le' (Nat.lt_of_lt_of_le n.succ_pos hfuel')
    intro c around d hc hd
    have hle : n ≤ fuel := by omega
    exact (ih hle (by omega)).succ hle fun a d₁ hr => openContract_leaves hr hc hd

/-- For every class, one that has a contract included, the derivation is within any depth that is greater
than the number of described classes without a contract, and it does not depend on the depth. -/
theorem create_settled {c : Component} {around : Option String} {d : Draft} {fuel : Nat}
    (hfuel : s.unmet d + 1 < fuel) :
    (s.create fuel c around).run d = (s.create s.depth c around).run d ∧
      s.visitsCreate fuel c around d = s.visitsCreate s.depth c around d ∧
      ((s.create fuel c around).run d).1 ≠ .error .tooDeep := by
  obtain ⟨fuel, rfl⟩ := Nat.exists_eq_add_of_le' (Nat.lt_of_le_of_lt (Nat.zero_le _) hfuel)
  have hworld : s.unmet d ≤ s.world.classes.length := List.countP_le_length
  have halike : s.Alike (s.unmet d + 1) fuel (s.world.classes.length + 1) :=
    create_alike (by omega) (by omega)
  have hopened : ∀ a d₁, (s.openContract c around).run d = (.ok a, d₁) →
      s.unmet d₁ < s.unmet d + 1 ∨ s.world.find? c.type = none :=
    fun a d₁ hr => Or.inl (Nat.lt_succ_of_le (unmet_openContract hr))
  have hle : s.unmet d + 1 ≤ fuel := by omega
  obtain ⟨hrun, hvisits⟩ := halike.succ hle hopened
  exact ⟨hrun, hvisits, (s.create_succ_within (create_deep_of_le hle) hopened).1⟩

/-! What a derivation starts, and what a call does. -/

/-- One contract is derived: the others are started below it, each for a class that has none. -/
structure Descends (s : Synthesizer) (c : Component) (d : Draft) (vs : List Visit)
    (out : Except EmissionError Nat × Draft) : Prop extends s.Trail d vs out where
  entered : ∀ v ∈ vs.tail, s.Entered c v

/-- A call: it starts one contract at most for each class that the components lead to, if the class has
none, and when it succeeds the contracts that it has added are those that it has started. -/
structure Explores (s : Synthesizer) (cs : List Component) (d : Draft) (vs : List Visit)
    (out : Except EmissionError Blueprint × Draft) : Prop extends s.Trail d vs out where
  entered : ∀ v ∈ vs, ∃ c ∈ cs, s.Entered c v
  missing : ∀ v ∈ vs, d.has v.cls = false
  once : (vs.map Visit.cls).Nodup
  few : ∀ reached : List ClassId,
    (∀ c ∈ cs, ∀ t, Relation.ReflTransGen (s.Refers c.filter) c.type t → t ∈ reached) →
      vs.length ≤ reached.length
  ends : out.1 ≠ .error .tooDeep
  added : ∀ b, out.1 = .ok b → out.2.backings = d.backings ++ vs.map Visit.cls ∧
    out.2.contracts.length = d.contracts.length + vs.length

theorem visits_nodup (cs : List Component) (d : Draft) : ((s.visits cs d).map Visit.cls).Nodup := by
  refine List.pairwise_map.2 ((s.trail_synthesize cs d).ordered.imp_of_mem fun _ hv' hhas heq => ?_)
  obtain ⟨c, -, hentered⟩ := visits_entered hv'
  rw [heq, hentered.fresh] at hhas
  cases hhas

theorem explores (cs : List Component) (d : Draft) :
    s.Explores cs d (s.visits cs d) ((s.synthesize cs).run d) := by
  have htrail := s.trail_synthesize cs d
  constructor
  case toTrail => exact htrail
  case entered => exact fun v hv => visits_entered hv
  case missing =>
    intro v hv
    obtain ⟨c, -, hentered⟩ := visits_entered hv
    exact Bool.eq_false_iff.2 fun hhas => by
      simpa [hentered.fresh] using htrail.known v hv v.cls hhas
  case once => exact visits_nodup cs d
  case few =>
    intro reached hreached
    rw [← List.length_map Visit.cls]
    refine (List.Nodup.subperm (visits_nodup cs d) fun t ht => ?_).length_le
    obtain ⟨v, hv, rfl⟩ := List.mem_map.1 ht
    obtain ⟨c, hc, hentered⟩ := visits_entered hv
    exact hreached c hc v.cls hentered.reached
  case ends => exact s.synthesize_within cs d
  case added =>
    intro b hb
    have hfree : ∀ v ∈ s.visits cs d, (!v.refused s) = true := by
      intro v hv
      rw [(htrail.settled (by rw [hb]; rfl) v hv).2, Bool.not_false]
    have hbackings := htrail.backings
    rw [List.filter_eq_self.2 hfree] at hbackings
    refine ⟨hbackings, ?_⟩
    have hlength := congrArg List.length hbackings
    simpa [Draft.backings] using hlength

/-- For all worlds, filters and drafts, deriving a contract ends: it goes down to fresh classes only, and
any depth is enough that is greater than the number of described classes without a contract. A call starts
one contract at most for each class that is reached, and adds as many as it started when it succeeds. -/
theorem derivation_visits_once (s : Synthesizer) :
    (∀ fuel c around d, s.unmet d + 1 < fuel →
      (s.create fuel c around).run d = (s.create s.depth c around).run d ∧
        s.visitsCreate fuel c around d = s.visitsCreate s.depth c around d ∧
          ((s.create fuel c around).run d).1 ≠ .error .tooDeep) ∧
      (∀ c around d, s.Descends c d (s.visitsCreate s.depth c around d)
        ((s.create s.depth c around).run d)) ∧
        ∀ cs d, s.Explores cs d (s.visits cs d) ((s.synthesize cs).run d) :=
  ⟨fun _ _ _ _ hfuel => create_settled hfuel,
    fun c around d => ⟨s.trail_create s.depth c around d, visitsCreate_entered.2⟩, explores⟩

/-- Two classes that lead to each other. -/
theorem peers_visited : Peers.synthesizer.unmet Peers.synthesizer.start + 1 < 10 ∧
    (Peers.synthesizer.create 10 { type := Peers.left } none).run Peers.synthesizer.start =
      (Peers.synthesizer.create Peers.synthesizer.depth { type := Peers.left } none).run
        Peers.synthesizer.start ∧
      ((Peers.synthesizer.visits Peers.components Peers.synthesizer.start).map Visit.cls =
        [Peers.left, Peers.right]) ∧
        ∃ b d, (Peers.synthesizer.synthesize Peers.components).run Peers.synthesizer.start = (.ok b, d) ∧
          d.backings = [Peers.left, Peers.right] ∧ d.contracts.length = 2 := by
  obtain ⟨hcreate, -, hcalls⟩ := derivation_visits_once Peers.synthesizer
  have hfuel : Peers.synthesizer.unmet Peers.synthesizer.start + 1 < 10 := by decide +kernel
  have hvisits : (Peers.synthesizer.visits Peers.components Peers.synthesizer.start).map Visit.cls =
      [Peers.left, Peers.right] := by decide +kernel
  have hok : ((Peers.synthesizer.synthesize Peers.components).run Peers.synthesizer.start).1.isOk =
      true := by decide +kernel
  obtain ⟨b, d, hb⟩ := run_of_isOk hok
  obtain ⟨hbackings, hlength⟩ := (hcalls Peers.components Peers.synthesizer.start).added b (by rw [hb])
  rw [hb, hvisits] at hbackings
  rw [hb, ← List.length_map Visit.cls, hvisits] at hlength
  exact ⟨hfuel, (hcreate 10 { type := Peers.left } none _ hfuel).1, hvisits, b, d, hb, hbackings, hlength⟩

end Synthesizer

end ModelContracts
