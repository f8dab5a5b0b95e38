import ModelContracts.Proofs.Build.Planning
import ModelContracts.Proofs.Synthesis.Forest
import ModelContracts.Proofs.Text.Identifier

/-!
When the names of a build are identifiers. The stem of an artifact keeps all word characters, and not all
of these can stand in identifiers: superscripts and fractions cannot. Where the path has none of them, the
module and all contracts go by identifiers, and otherwise none of them does. The stem itself has to start
like an identifier besides, which some characters that it keeps do not.
-/

namespace ModelContracts

open Text Ledger

namespace Artifact

/-- Every character that the stem keeps can stand in an identifier. -/
def Clean (p : Path) : Prop :=
  ∀ c ∈ p.stem.toList, wordChars.contains c = true → identifierContinue.contains c = true

instance (p : Path) : Decidable (Clean p) := by unfold Clean; infer_instance

/-- When the stem keeps the first character, it is a digit or starts identifiers. -/
def Opens (p : Path) : Prop :=
  ∀ c ∈ p.stem.toList.head?, wordChars.contains c = true →
    digitChars.contains c = true ∨ identifierStart.contains c = true

instance (p : Path) : Decidable (Opens p) :=
  decidable_of_iff (∀ c ∈ p.stem.toList.head?.toList, wordChars.contains c = true →
    digitChars.contains c = true ∨ identifierStart.contains c = true) <| by
      simp only [Opens, Option.mem_toList, Option.mem_def]

variable {p : Path} {c : Char}

theorem start_underscore : identifierStart.contains '_' = true := by decide +kernel

theorem continue_kept : identifierContinue.contains (wordOrUnderscore c) = true ↔
    (wordChars.contains c = true → identifierContinue.contains c = true) := by
  unfold wordOrUnderscore
  split
  · next hword => exact ⟨fun h _ => h, fun h => h hword⟩
  · next hword => exact ⟨fun _ h => absurd h hword, fun _ => continue_of_start start_underscore⟩

theorem start_kept : identifierStart.contains (wordOrUnderscore c) = true ↔
    (wordChars.contains c = true → identifierStart.contains c = true) := by
  unfold wordOrUnderscore
  split
  · next hword => exact ⟨fun h _ => h, fun h => h hword⟩
  · next hword => exact ⟨fun _ h => absurd h hword, fun _ => start_underscore⟩

theorem digit_kept : digitChars.contains (wordOrUnderscore c) = true ↔
    wordChars.contains c = true ∧ digitChars.contains c = true := by
  have hunderscore : digitChars.contains '_' = false := by decide +kernel
  unfold wordOrUnderscore
  split
  · next hword => exact ⟨fun h => ⟨hword, h⟩, And.right⟩
  · next hword =>
    rw [hunderscore]
    exact ⟨fun h => absurd h Bool.false_ne_true, fun h => absurd h.1 hword⟩

/-- What the stem makes of the characters of a path. -/
def kept (p : Path) : List Char := p.stem.toList.map wordOrUnderscore

theorem kept_eq_nil : kept p = [] ↔ p.stem.toList = [] := by rw [kept, List.map_eq_nil_iff]

theorem stem_of_nil (h : kept p = []) : stem p = "_" := by
  rw [stem, kept_eq_nil.1 h]
  rfl

theorem stem_of_cons {cs : List Char} (h : kept p = c :: cs) :
    stem p = String.ofList (if digitChars.contains c then '_' :: c :: cs else c :: cs) := by
  have hcons : p.stem.toList.map (fun c => if wordChars.contains c then c else '_') = c :: cs := h
  rw [stem, hcons]

theorem kept_clean : (∀ d ∈ kept p, identifierContinue.contains d = true) ↔ Clean p := by
  rw [kept, List.forall_mem_map]
  exact forall₂_congr fun c _ => continue_kept

theorem continues_stem : Continues (stem p) ↔ Clean p := by
  have hunderscore := continue_of_start start_underscore
  rw [← kept_clean]
  cases h : kept p with
  | nil => simp [stem_of_nil h, Continues, hunderscore]
  | cons c cs =>
    rw [stem_of_cons h]
    split_ifs <;> simp [Continues, hunderscore]

/-- The first character that the stem keeps, unless it is a digit, has to start an identifier. -/
theorem opens_iff {cs : List Char} (h : kept p = c :: cs) :
    Opens p ↔ digitChars.contains c = true ∨ identifierStart.contains c = true := by
  obtain ⟨a, rest, hstem, rfl, -⟩ := List.map_eq_cons_iff.1 h
  rw [digit_kept, start_kept, Opens, hstem]
  simp only [List.head?_cons, Option.mem_def, Option.some.injEq, forall_eq']
  by_cases hword : wordChars.contains a = true <;> simp [hword]

theorem isIdentifier_stem : isIdentifier (stem p) = true ↔ Clean p ∧ Opens p := by
  cases h : kept p with
  | nil =>
    simp [stem_of_nil h, Clean, Opens, kept_eq_nil.1 h, isIdentifier, start_underscore]
  | cons c cs =>
    rw [opens_iff h, ← kept_clean, h, stem_of_cons h]
    by_cases hdigit : digitChars.contains c = true
    · rw [if_pos hdigit, isIdentifier_cons]
      exact ⟨fun h => ⟨h.2, .inl hdigit⟩, fun h => ⟨start_underscore, h.1⟩⟩
    · rw [if_neg hdigit, isIdentifier_cons, List.forall_mem_cons]
      constructor
      · rintro ⟨hstart, hrest⟩
        exact ⟨⟨continue_of_start hstart, hrest⟩, .inr hstart⟩
      · rintro ⟨⟨-, hrest⟩, hopens⟩
        exact ⟨hopens.resolve_left hdigit, hrest⟩

theorem isIdentifier_moduleStart : isIdentifier "modelgen_generated_" = true := by decide +kernel

theorem isIdentifier_moduleName : isIdentifier (moduleName p) = true ↔ Clean p :=
  (isIdentifier_append isIdentifier_moduleStart).trans continues_stem

end Artifact

namespace Synthesizer

variable {s : Synthesizer} {d d' : Draft} {cs : List Component} {ks : List Contract}

/-- Every contract has the stem in its name, in front of the name of its class. -/
theorem Forest.name_eq (h : s.Forest cs d d' ks) {before after : List Contract} {k : Contract}
    (hk : ks = before ++ k :: after) :
    ∃ start, k.name = start ++ s.stem ++ k.backing.simpleName ∧
      (start = s.namePrefix ∨ ∃ p ∈ before, start = p.name) := by
  cases hnested : k.nested with
  | false =>
    obtain ⟨-, -, hname, -, -⟩ := h.roots k (by simp [hk]) hnested
    exact ⟨s.namePrefix, hname, .inl rfl⟩
  | true =>
    obtain ⟨-, _, _, -, -, -, -, p, hp, hnests, -, -⟩ := h.nested before k after hk hnested
    exact ⟨p.name, hnests.name, .inr ⟨p, hp, rfl⟩⟩

/-- By induction on the place of a contract in the list: it is named below an earlier one. -/
theorem Forest.isIdentifier_name (h : s.Forest cs d d' ks) (hstem : Continues s.stem)
    (hfront : isIdentifier s.namePrefix = true)
    (hclasses : ∀ k ∈ ks, isIdentifier k.backing.simpleName = true)
    (before : List Contract) {after : List Contract} {k : Contract} (hk : ks = before ++ k :: after) :
    isIdentifier k.name = true := by
  induction hlength : before.length using Nat.strong_induction_on generalizing before after k with
  | _ n ih =>
    obtain ⟨start, hname, hstart⟩ := h.name_eq hk
    have hidentifier : isIdentifier start = true := by
      rcases hstart with rfl | ⟨p, hp, rfl⟩
      · exact hfront
      · obtain ⟨front, between, rfl⟩ := List.append_of_mem hp
        have hearlier : ks = front ++ p :: (between ++ k :: after) := by simp [hk]
        refine ih front.length ?_ front hearlier rfl
        simp [← hlength]
    have hclass := continues_of_isIdentifier (hclasses k (by simp [hk]))
    rw [hname, String.append_assoc, isIdentifier_append hidentifier]
    exact continues_append.2 ⟨hstem, hclass⟩

theorem Forest.isIdentifier_iff (h : s.Forest cs d d' ks) (hfront : isIdentifier s.namePrefix = true)
    (hclasses : ∀ k ∈ ks, isIdentifier k.backing.simpleName = true) {k : Contract} (hk : k ∈ ks) :
    isIdentifier k.name = true ↔ Continues s.stem := by
  obtain ⟨before, after, hsplit⟩ := List.append_of_mem hk
  constructor
  · intro hname
    obtain ⟨start, heq, -⟩ := h.name_eq hsplit
    rw [heq] at hname
    exact (continues_append.1 (continues_append.1 (continues_of_isIdentifier hname)).1).2
  · intro hstem
    exact h.isIdentifier_name hstem hfront hclasses before hsplit

end Synthesizer

namespace Artifact

/-- The stem of a path is an identifier just when all characters that it keeps can stand in one and the
first can start one; the names of the module and of all contracts, where the prefix and the names of the
classes are identifiers, are identifiers just when the characters can stand in one. -/
theorem names_identify (p : Path) :
    (isIdentifier (stem p) = true ↔ Clean p ∧ Opens p) ∧
    (isIdentifier (moduleName p) = true ↔ Clean p) ∧
    ∀ (b : Builder) (components : List Component) (s : Session) (plan : Blueprint),
      ((b.derive components p).run s).1 = .ok plan → isIdentifier b.settings.namePrefix = true →
      (∀ k ∈ plan.contracts, isIdentifier k.backing.simpleName = true) →
      ∀ k ∈ plan.contracts, (isIdentifier k.name = true ↔ Clean p) := by
  refine ⟨isIdentifier_stem, isIdentifier_moduleName, ?_⟩
  intro b components s plan hderive hfront hclasses k hk
  obtain ⟨L, d, hdraft, -⟩ := Builder.plans_of_derive hderive
  have hforest := Synthesizer.synthesize_forest hdraft
  have hstem : (b.synthesizer s.world p).stem = stem p := by rw [Builder.synthesizer]
  rw [hforest.isIdentifier_iff hfront hclasses hk, hstem, continues_stem]

end Artifact

namespace Titled

def builder : Builder := {}

def session : Session := { world := Peers.synthesizer.world }

/-- The names of the contracts of two classes that lead to each other, in a file of the name, with
those of the classes. -/
def titles (file : String) : Option (List (String × String)) :=
  ((builder.derive Peers.components (Path.ofText file)).run session).1.toOption.map fun plan =>
    plan.contracts.map fun k => (k.name, k.backing.simpleName)

theorem exists_plan {file : String} {names : List (String × String)} (h : titles file = some names) :
    ∃ plan, ((builder.derive Peers.components (Path.ofText file)).run session).1 = .ok plan ∧
      plan.contracts.map (fun k => (k.name, k.backing.simpleName)) = names := by
  unfold titles at h
  rcases hplan : ((builder.derive Peers.components (Path.ofText file)).run session).1 with e | plan
  · rw [hplan] at h
    cases h
  · rw [hplan] at h
    exact ⟨plan, rfl, Option.some.inj h⟩

/-- In a file whose name is made of letters all names are identifiers, that of the nested contract too. -/
theorem letters_identify : isIdentifier (Artifact.stem (Path.ofText "App.py")) = true ∧
    isIdentifier (Artifact.moduleName (Path.ofText "App.py")) = true ∧
    titles "App.py" = some [("IModelAppLeft", "Left"), ("IModelAppLeftAppRight", "Right")] ∧
    ∃ plan, ((builder.derive Peers.components (Path.ofText "App.py")).run session).1 = .ok plan ∧
      ∀ k ∈ plan.contracts, isIdentifier k.name = true := by
  have hclean : Artifact.Clean (Path.ofText "App.py") := by decide +kernel
  have hopens : Artifact.Opens (Path.ofText "App.py") := by decide +kernel
  have htitles : titles "App.py" =
      some [("IModelAppLeft", "Left"), ("IModelAppLeftAppRight", "Right")] := by decide +kernel
  have hfront : isIdentifier builder.settings.namePrefix = true := by decide +kernel
  obtain ⟨hstem, hmodule, hcontracts⟩ := Artifact.names_identify (Path.ofText "App.py")
  obtain ⟨plan, hplan, hnames⟩ := exists_plan htitles
  have hclasses : ∀ k ∈ plan.contracts, isIdentifier k.backing.simpleName = true := by
    intro k hk
    have hall : ∀ n ∈ [("IModelAppLeft", "Left"), ("IModelAppLeftAppRight", "Right")],
        isIdentifier n.2 = true := by decide +kernel
    have hmem : (k.name, k.backing.simpleName) ∈
        plan.contracts.map fun k => (k.name, k.backing.simpleName) := List.mem_map_of_mem hk
    rw [hnames] at hmem
    exact hall (k.name, k.backing.simpleName) hmem
  have hall := hcontracts builder Peers.components session plan hplan hfront hclasses
  exact ⟨hstem.2 ⟨hclean, hopens⟩, hmodule.2 hclean, htitles, plan, hplan,
    fun k hk => (hall k hk).2 hclean⟩

/-- A superscript is a word character, so the stem keeps it: none of the names is an identifier. -/
theorem superscript_kept : Artifact.stem (Path.ofText "a².py") = "a²" ∧
    isIdentifier (Artifact.stem (Path.ofText "a².py")) = false ∧
    isIdentifier (Artifact.moduleName (Path.ofText "a².py")) = false ∧
    titles "a².py" = some [("IModela²Left", "Left"), ("IModela²Lefta²Right", "Right")] ∧
    isIdentifier "IModela²Left" = false ∧ isIdentifier "IModela²Lefta²Right" = false := by
  decide +kernel

end Titled

end ModelContracts
