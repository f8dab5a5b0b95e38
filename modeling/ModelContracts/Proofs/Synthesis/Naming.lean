import ModelContracts.Proofs.Synthesis.Opening

/-!
The names that a derivation asks for, in the order in which it asks. A name is asked for once for each
contract that is opened. The names table always agrees with the contracts on the list, so the names
asked for become those of new contracts one after the other, until one is asked for that another
class has: this one is reported, with both classes, and it is the last.
-/

namespace ModelContracts

open EmissionError Draft Emitting

/-- What is asked for after a run, unless it failed. -/
def askedAfter {α β : Type} (next : α → Draft → List β) : Except EmissionError α × Draft → List β
  | (.ok a, d) => next a d
  | (.error _, _) => []

theorem askedAfter_nil {α β : Type} (out : Except EmissionError α × Draft) :
    askedAfter (fun _ _ => ([] : List β)) out = [] := by
  unfold askedAfter
  split <;> rfl

theorem mem_askedAfter {α β : Type} {next : α → Draft → List β} {out : Except EmissionError α × Draft}
    {x : β} (h : x ∈ askedAfter next out) : ∃ a, out.1 = .ok a ∧ x ∈ next a out.2 := by
  rcases out with ⟨e | a, d⟩
  · cases h
  · exact ⟨a, rfl, h⟩

namespace Synthesizer

variable (s : Synthesizer)

section

-- How a contract below another one is derived, and what this asks for.
variable {β : Type} (create : Component → Option String → Synthesis Nat)
  (asked : Component → Option String → Draft → List β)

def askedNested (c : Component) (name : String) (p : Descriptor) (d : Draft) : List β :=
  match s.nestedClass? p with
  | some nested => if d.has nested then [] else asked (nestedComponent c nested) (some name) d
  | none => []

def askedMembers (c : Component) (place : Nat) (name : String) :
    List Descriptor → List String → Draft → List β
  | [], _, _ => []
  | p :: rest, seen, d =>
    if seen.contains p.name then askedMembers c place name rest seen d
    else s.askedNested asked c name p d ++
      askedAfter (fun _ d' => askedMembers c place name rest (p.name :: seen) d')
        ((s.addMember create c place name p).run d)

variable {s create asked}

/-- What the members of a contract ask for is asked for the nodes that have no contract. -/
theorem mem_askedMembers {c : Component} {place : Nat} {name : String} {ds : List Descriptor}
    {seen : List String} {d : Draft} {x : β}
    (h : x ∈ s.askedMembers create asked c place name ds seen d) :
    ∃ p ∈ ds, ∃ nested d', s.nestedClass? p = some nested ∧ d'.has nested = false ∧
      x ∈ asked (nestedComponent c nested) (some name) d' := by
  induction ds generalizing seen d with
  | nil => cases h
  | cons p rest ih =>
    unfold askedMembers at h
    split_ifs at h with hp
    · obtain ⟨q, hq, hrest⟩ := ih h
      exact ⟨q, List.mem_cons_of_mem p hq, hrest⟩
    rcases List.mem_append.1 h with hnested | hafter
    · unfold askedNested at hnested
      split at hnested
      next nested hclass =>
        split_ifs at hnested with hhas
        · cases hnested
        · exact ⟨p, List.mem_cons_self, nested, d, hclass, by simpa using hhas, hnested⟩
      · cases hnested
    · obtain ⟨_, -, hmem⟩ := mem_askedAfter hafter
      obtain ⟨q, hq, hrest⟩ := ih hmem
      exact ⟨q, List.mem_cons_of_mem p hq, hrest⟩

end

/-- The names asked for while a contract is derived, that of the contract itself first. -/
def askedCreate : Nat → Component → Option String → Draft → List Naming
  | 0, _, _, _ => []
  | fuel + 1, c, around, d =>
    (c.type, s.contractName c.type around) ::
      askedAfter (fun (place, name) d' =>
        match s.accepted c.type c.filter with
        | .ok ds => s.askedMembers (s.create fuel) (askedCreate fuel) c place name ds [] d'
        | .error _ => []) ((s.openContract c around).run d)

def askedComponent (c : Component) (d : Draft) : List Naming :=
  askedAfter (fun _ d' => if d'.has c.type then [] else s.askedCreate s.depth c none d')
    ((c.referenceTypes.forM fun t => discard (s.type t)).run d)

/-- The names asked for by one call, in order. -/
def asked : List Component → Draft → List Naming
  | [], _ => []
  | c :: rest, d =>
    s.askedComponent c d ++ askedAfter (fun _ d' => asked rest d') ((s.addComponent c).run d)

/-! Each name is made of the class and the contract around it. -/

/-- Every name is one that the naming rule gives to its class. -/
def Ruled (l : List Naming) : Prop := ∀ n ∈ l, ∃ around, n.2 = s.contractName n.1 around

theorem ruled_nil : s.Ruled [] := by simp [Ruled]

theorem ruled_append {l l' : List Naming} (h : s.Ruled l) (h' : s.Ruled l') :
    s.Ruled (l ++ l') := by
  intro n hn
  rcases List.mem_append.1 hn with hn | hn
  · exact h n hn
  · exact h' n hn

theorem ruled_after {α : Type} {next : α → Draft → List Naming}
    (h : ∀ a d, s.Ruled (next a d)) (out : Except EmissionError α × Draft) :
    s.Ruled (askedAfter next out) := by
  intro n hn
  obtain ⟨a, -, hn⟩ := mem_askedAfter hn
  exact h a out.2 n hn

theorem askedMembers_ruled {create : Component → Option String → Synthesis Nat}
    {asked : Component → Option String → Draft → List Naming}
    (h : ∀ c around d, s.Ruled (asked c around d)) (c : Component) (place : Nat) (name : String)
    (ds : List Descriptor) (seen : List String) (d : Draft) :
    s.Ruled (s.askedMembers create asked c place name ds seen d) := by
  intro n hn
  obtain ⟨_, -, nested, d', -, -, hn⟩ := mem_askedMembers hn
  exact h (nestedComponent c nested) (some name) d' n hn

theorem askedCreate_ruled (fuel : Nat) (c : Component) (around : Option String) (d : Draft) :
    s.Ruled (s.askedCreate fuel c around d) := by
  induction fuel generalizing c around d with
  | zero => exact s.ruled_nil
  | succ fuel ih =>
    refine s.ruled_append (l := [_]) ?_ (s.ruled_after (fun _ d' => ?_) _)
    · intro n hn
      rw [List.mem_singleton.1 hn]
      exact ⟨around, rfl⟩
    · dsimp only
      split
      · exact s.askedMembers_ruled ih _ _ _ _ _ _
      · exact s.ruled_nil

theorem asked_ruled (cs : List Component) (d : Draft) : s.Ruled (s.asked cs d) := by
  induction cs generalizing d with
  | nil => exact s.ruled_nil
  | cons c rest ih =>
    refine s.ruled_append (s.ruled_after (fun _ d' => ?_) _) (s.ruled_after (fun _ d' => ih d') _)
    split_ifs
    · exact s.ruled_nil
    · exact s.askedCreate_ruled s.depth c none d'

end Synthesizer

/-- How a run ends that asked for names: each is that of a new contract, except that the last one may
be reported because another class has it. -/
structure Given {α : Type} (d : Draft) (asked : List Naming) (out : Except EmissionError α × Draft) :
    Prop where
  sound : out.2.Sound
  conflict : ∀ name first second, out.1 = .error (.nameConflict name first second) →
    first ≠ second ∧ (first, name) ∈ out.2.namings ∧
      ∃ given, asked = given ++ [(second, name)] ∧ out.2.namings = d.namings ++ given
  otherwise : (∀ name first second, out.1 ≠ .error (.nameConflict name first second)) →
    out.2.namings = d.namings ++ asked

namespace Given

variable {α β : Type} {d : Draft} {m : Synthesis α}

theorem of_same (hd : d.Sound) (hk : Keeps SameNamings m) (hf : FailsWith IsTextual m) :
    Given d [] (m.run d) where
  sound := hd.of_same (hk d)
  conflict name first second h := (hf (Prod.ext h rfl : m.run d = (_, (m.run d).2))).elim
  otherwise _ := by rw [(hk d).1, List.append_nil]

theorem bind {f : α → Synthesis β} {l : List Naming} {l' : α → Draft → List Naming}
    (hm : Given d l (m.run d))
    (hf : ∀ a d₁, m.run d = (.ok a, d₁) → d₁.Sound → Given d₁ (l' a d₁) ((f a).run d₁)) :
    Given d (l ++ askedAfter l' (m.run d)) ((m >>= f).run d) := by
  rw [run_bind]
  rcases h : m.run d with ⟨e | a, d₁⟩
  · rw [h] at hm
    dsimp only [askedAfter]
    rw [List.append_nil]
    exact ⟨hm.sound, fun n a b he => hm.conflict n a b (by cases he; rfl),
      fun hne => hm.otherwise fun n a b he => hne n a b (by cases he; rfl)⟩
  · rw [h] at hm
    have hn : d₁.namings = d.namings ++ l := hm.otherwise (by simp)
    have hg := hf a d₁ h hm.sound
    refine ⟨hg.sound, fun n x y he => ?_, fun hne => ?_⟩
    · obtain ⟨hxy, hx, given, hasked, hgiven⟩ := hg.conflict n x y he
      exact ⟨hxy, hx, l ++ given, by rw [askedAfter, hasked, List.append_assoc], by rw [hgiven, hn, List.append_assoc]⟩
    · rw [askedAfter, hg.otherwise hne, hn, List.append_assoc]

/-- What is done after a run may ask for nothing. -/
theorem bind_same {f : α → Synthesis β} {l : List Naming} (hm : Given d l (m.run d))
    (hk : ∀ a, Keeps SameNamings (f a)) (hf : ∀ a, FailsWith IsTextual (f a)) :
    Given d l ((m >>= f).run d) := by
  have h : Given d (l ++ askedAfter (fun _ _ => []) (m.run d)) ((m >>= f).run d) :=
    hm.bind fun a d₁ _ hd₁ => of_same hd₁ (hk a) (hf a)
  rwa [askedAfter_nil, List.append_nil] at h

end Given

namespace Synthesizer

variable (s : Synthesizer)

section

variable {create : Component → Option String → Synthesis Nat}
  {asked : Component → Option String → Draft → List Naming}

/-- Deriving the contract of a class that has none asks for what it is said to. -/
def AsksFor (create : Component → Option String → Synthesis Nat)
    (asked : Component → Option String → Draft → List Naming) : Prop :=
  ∀ c around d, d.Sound → d.has c.type = false →
    Given d (asked c around d) ((create c around).run d)

theorem given_createNested (h : AsksFor create asked) (c : Component) (name : String)
    (p : Descriptor) {d : Draft} (hd : d.Sound) :
    Given d (s.askedNested asked c name p d) ((s.createNested create c name p).run d) := by
  unfold createNested askedNested
  cases s.nestedClass? p with
  | none => exact .of_same hd (.pure _) (.pure _)
  | some nested =>
    dsimp only
    rw [run_bind, run_get]
    dsimp only
    cases hn : d.has nested with
    | true => exact .of_same hd (.pure _) (.pure _)
    | false => exact (h _ _ d hd hn).bind_same (fun _ => .pure _) fun _ => .pure _

theorem given_addMember (h : AsksFor create asked) (c : Component) (place : Nat) (name : String)
    (p : Descriptor) {d : Draft} (hd : d.Sound) :
    Given d (s.askedNested asked c name p d) ((s.addMember create c place name p).run d) := by
  refine (s.given_createNested h c name p hd).bind_same (fun _ => ?_) fun _ => ?_
  · refine Keeps.bind (fun d' => (s.member_keeps p d').sameNamings) fun m => ?_
    exact .modify fun d' => ⟨namings_addMember d' place m, rfl, rfl⟩
  · exact (s.member_textual p).bind fun m => .modify _

theorem given_addMembers (h : AsksFor create asked) (c : Component) (place : Nat) (name : String)
    (ds : List Descriptor) (seen : List String) {d : Draft} (hd : d.Sound) :
    Given d (s.askedMembers create asked c place name ds seen d)
      ((s.addMembers create c place name ds seen).run d) := by
  induction ds generalizing seen d with
  | nil => exact .of_same hd (.pure _) (.pure _)
  | cons p rest ih =>
    unfold addMembers askedMembers
    split_ifs with hp
    · exact ih seen hd
    · exact (s.given_addMember h c place name p hd).bind fun _ d₁ _ hd₁ => ih (p.name :: seen) hd₁

end

/-- Opening a contract asks for its name. -/
theorem given_openContract (c : Component) (around : Option String) {d : Draft} (hd : d.Sound)
    (hc : d.has c.type = false) :
    Given d [(c.type, s.contractName c.type around)] ((s.openContract c around).run d) := by
  cases hr : d.rival? (s.contractName c.type around) c.type with
  | some other =>
    obtain ⟨hname, hne⟩ := rival?_eq_some.1 hr
    rw [s.openContract_taken hr]
    refine ⟨hd, fun name first second he => ?_, fun h => (h _ _ _ rfl).elim⟩
    cases he
    exact ⟨hne, (hd.names _ _).1 hname, [], rfl, (List.append_nil _).symm⟩
  | none =>
    obtain ⟨k, e, hback, hname, -, hopen⟩ := s.openContract_free hr
    rw [hopen]
    rw [← hback] at hc
    rw [← hname, ← hback] at hr ⊢
    exact ⟨hd.opened hc hr, fun _ _ _ he => (by cases he), fun _ => by simp [namings]⟩

theorem given_create (fuel : Nat) : AsksFor (s.create fuel) (s.askedCreate fuel) := by
  induction fuel with
  | zero =>
    intro c around d hd _
    exact ⟨hd, fun _ _ _ he => (by cases he), fun _ => (List.append_nil _).symm⟩
  | succ fuel ih =>
    intro c around d hd hc
    refine (s.given_openContract c around hd hc).bind fun ⟨place, name⟩ d₁ _ hd₁ => ?_
    dsimp only
    rcases ha : s.accepted c.type c.filter with e | ds
    · exact .of_same hd₁ (.throw _) (.throw (accepted_textual ha))
    · exact (s.given_addMembers ih c place name ds [] hd₁).bind_same (fun _ => .pure _)
        fun _ => .pure _

theorem given_addComponent (c : Component) {d : Draft} (hd : d.Sound) :
    Given d (s.askedComponent c d) ((s.addComponent c).run d) := by
  have hwrite : Given d [] ((c.referenceTypes.forM fun t => discard (s.type t)).run d) := by
    refine .of_same hd (fun d' => SameContracts.sameNamings ?_) ?_
    · exact Keeps.forM (fun t => (emitting_keeps _).map) _ d'
    · exact .forM (fun t => (s.type_textual t).map) _
  rw [← List.nil_append (s.askedComponent c d)]
  refine hwrite.bind fun _ d₁ _ hd₁ => ?_
  rw [run_bind, run_get]
  dsimp only
  split_ifs with hc
  · exact .of_same hd₁ (fun d' => (emitting_keeps _ d').sameNamings)
      (Synthesis.emitting_failsWith (.of_ok fun _ => ⟨_, _, rfl⟩))
  · exact (s.given_create s.depth c none d₁ hd₁ (by simpa using hc)).bind_same (fun _ => .pure _)
      fun _ => .pure _

theorem given_addComponents (cs : List Component) {d : Draft} (hd : d.Sound) :
    Given d (s.asked cs d) ((cs.forM s.addComponent).run d) := by
  induction cs generalizing d with
  | nil => exact .of_same hd (.pure _) (.pure _)
  | cons c rest ih => exact (s.given_addComponent c hd).bind fun _ d₁ _ hd₁ => ih hd₁

/-- What a call asks for. -/
theorem given_synthesize (cs : List Component) {d : Draft} (hd : d.Sound) :
    Given d (s.asked cs d) ((s.synthesize cs).run d) := by
  refine (s.given_addComponents cs hd).bind_same (fun _ => ?_) fun _ => ?_
  · refine Keeps.bind (fun d' => (emitting_keeps _ d').sameNamings) fun _ => ?_
    exact Keeps.get.bind fun _ => .pure _
  · exact (Synthesis.emitting_failsWith (recording_textual _)).bind fun _ =>
      FailsWith.get.bind fun _ => .pure _

end Synthesizer

end ModelContracts
