import ModelContracts.Command.Run
import ModelContracts.Proofs.Annotation.Converting
import ModelContracts.Proofs.Reference.Importing
import ModelContracts.Proofs.Text.Pieces

/-!
Classes named on the command line. A target names the class that the names behind its first colon lead to
from the module before it. Whatever else is written there is refused as a bad parameter, except that a
module which is named relative to nothing breaks the search off with an error of its own.
-/

namespace ModelContracts

open Commanding

/-- A text with its first colon between a module and the names that lead on from it. -/
structure Address (spec moduleName path : String) : Prop where
  text : spec = moduleName ++ ":" ++ path
  first : ':' ∉ moduleName.toList
  module : moduleName ≠ ""
  path : path ≠ ""

/-- The module is named relative to another one. -/
def RelativeTarget (spec : String) : Prop :=
  ∃ moduleName path, Address spec moduleName path ∧ Text.startsWith "." moduleName = true

namespace World

variable (w : World)

/-- The names behind the colon lead from the module before it to the class. -/
inductive Names (spec : String) (c : ClassId) : Prop
  | intro {moduleName path : String} {e : Entity} (address : Address spec moduleName path)
    (provided : w.Provides moduleName)
    (follows : w.Follows (.module moduleName) (Text.split '.' path) e) (ends : e.class? = some c)

/-- A class that its qualified name leads to from its module. -/
structure Addressable (c : ClassId) : Prop where
  uncut : ':' ∉ c.moduleName.toList
  named : c.qualName ≠ ""
  provided : w.Provides c.moduleName
  leads : ∃ e, w.Follows (.module c.moduleName) (Text.split '.' c.qualName) e ∧ e.class? = some c

end World

section

variable {w : World} {spec moduleName path : String} {c : ClassId} {e : TargetError}

/-! Addresses. -/

theorem address_iff : Address spec moduleName path ↔
    Text.cut ':' spec = some (moduleName, path) ∧ moduleName.isEmpty = false ∧ path.isEmpty = false := by
  have hempty : ∀ s : String, s.isEmpty = false ↔ s ≠ "" := by
    intro s
    rw [Bool.eq_false_iff, ne_eq, String.isEmpty_iff]
  rw [Text.cut_eq_some, hempty, hempty]
  constructor
  · rintro ⟨rfl, hfirst, hmodule, hpath⟩
    exact ⟨⟨by simp, hfirst⟩, hmodule, hpath⟩
  · rintro ⟨⟨htext, hfirst⟩, hmodule, hpath⟩
    exact ⟨String.toList_inj.1 (by simpa using htext), hfirst, hmodule, hpath⟩

theorem Address.unique {moduleName' path' : String} (h : Address spec moduleName path)
    (h' : Address spec moduleName' path') : moduleName = moduleName' ∧ path = path' := by
  have hcut := (address_iff.1 h).1
  rw [(address_iff.1 h').1, Option.some.injEq, Prod.mk.injEq] at hcut
  exact ⟨hcut.1.symm, hcut.2.symm⟩

/-! What a target comes to. -/

/-- All that can come of a target, with the reason for it. -/
inductive World.Outcome (w : World) (spec : String) : Except TargetError ClassId → Prop
  | malformed (unaddressed : ∀ moduleName path, ¬ Address spec moduleName path) :
    w.Outcome spec (.error (.malformed spec))
  | relative {moduleName path : String} (address : Address spec moduleName path)
    (refused : w.import? moduleName = .error .relative) : w.Outcome spec (.error .relative)
  | notImported {moduleName path : String} {e : ImportError} (address : Address spec moduleName path)
    (refused : w.import? moduleName = .error e) (known : e ≠ .relative) :
    w.Outcome spec (.error (.notImported moduleName e))
  | noAttribute {moduleName path : String} (address : Address spec moduleName path)
    (provided : w.Provides moduleName)
    (lost : w.walk? (.module moduleName) (Text.split '.' path) = none) :
    w.Outcome spec (.error (.noAttribute moduleName path))
  | notClass {moduleName path : String} {e : Entity} (address : Address spec moduleName path)
    (provided : w.Provides moduleName)
    (found : w.walk? (.module moduleName) (Text.split '.' path) = some e) (other : e.class? = none) :
    w.Outcome spec (.error (.notClass spec))
  | named {moduleName path : String} {e : Entity} {c : ClassId}
    (address : Address spec moduleName path) (provided : w.Provides moduleName)
    (found : w.walk? (.module moduleName) (Text.split '.' path) = some e) (ends : e.class? = some c) :
    w.Outcome spec (.ok c)

theorem target?_outcome (w : World) (spec : String) : w.Outcome spec (w.target? spec) := by
  unfold World.target?
  split
  next hcut =>
    refine .malformed fun moduleName path h => ?_
    rw [(address_iff.1 h).1] at hcut
    cases hcut
  next moduleName path hcut =>
    split_ifs with hempty
    · refine .malformed fun moduleName' path' h => ?_
      obtain ⟨hcut', hmodule, hpath⟩ := address_iff.1 h
      rw [hcut, Option.some.injEq, Prod.mk.injEq] at hcut'
      obtain ⟨rfl, rfl⟩ := hcut'
      rw [hmodule, hpath] at hempty
      cases hempty
    · rw [Bool.or_eq_true, not_or, Bool.not_eq_true, Bool.not_eq_true] at hempty
      have address : Address spec moduleName path := address_iff.2 ⟨hcut, hempty⟩
      split
      next hrefused => exact .relative address hrefused
      next e hknown hrefused => exact .notImported address hrefused hknown
      next name hprovided =>
        obtain rfl := World.import?_ok hprovided
        split
        next hlost => exact .noAttribute address hprovided hlost
        next e hfound =>
          split
          next c hclass => exact .named address hprovided hfound hclass
          next hother => exact .notClass address hprovided hfound hother

theorem import?_eq_relative {name : String} :
    w.import? name = .error .relative ↔ Text.startsWith "." name = true := by
  have hempty : name.isEmpty = true → Text.startsWith "." name = false := by
    intro h
    rw [String.isEmpty_iff.1 h]
    rfl
  unfold World.import?
  split_ifs with hname hdot hmodule
  · simp [hempty hname]
  · simp [hdot]
  · simp [hdot]
  · split <;> simp [hdot]

theorem names_iff : w.Names spec c ↔ ∃ moduleName path, Address spec moduleName path ∧
    w.Provides moduleName ∧
      (w.walk? (.module moduleName) (Text.split '.' path)).bind Entity.class? = some c := by
  constructor
  · rintro ⟨address, provided, follows, ends⟩
    exact ⟨_, _, address, provided, World.class?_walk?.2 ⟨_, follows, ends⟩⟩
  · rintro ⟨moduleName, path, address, provided, hwalk⟩
    obtain ⟨e, follows, ends⟩ := World.class?_walk?.1 hwalk
    exact ⟨address, provided, follows, ends⟩

theorem target?_eq_ok : w.target? spec = .ok c ↔ w.Names spec c := by
  have houtcome := target?_outcome w spec
  rw [names_iff]
  constructor
  · intro h
    rw [h] at houtcome
    cases houtcome with
    | named address provided found ends =>
      exact ⟨_, _, address, provided, by rw [found, Option.bind_some, ends]⟩
  · rintro ⟨moduleName, path, address, provided, hwalk⟩
    have himport : w.import? moduleName = .ok moduleName := provided
    generalize w.target? spec = r at houtcome ⊢
    cases houtcome with
    | malformed unaddressed => exact (unaddressed _ _ address).elim
    | relative address' refused | notImported address' refused =>
      obtain ⟨rfl, rfl⟩ := address.unique address'
      rw [himport] at refused
      cases refused
    | noAttribute address' provided' lost =>
      obtain ⟨rfl, rfl⟩ := address.unique address'
      rw [lost] at hwalk
      cases hwalk
    | notClass address' provided' found other =>
      obtain ⟨rfl, rfl⟩ := address.unique address'
      rw [found, Option.bind_some, other] at hwalk
      cases hwalk
    | named address' provided' found ends =>
      obtain ⟨rfl, rfl⟩ := address.unique address'
      rw [found, Option.bind_some, ends] at hwalk
      rw [Option.some.inj hwalk]

theorem target?_eq_relative : w.target? spec = .error .relative ↔ RelativeTarget spec := by
  have houtcome := target?_outcome w spec
  constructor
  · intro h
    rw [h] at houtcome
    cases houtcome with
    | relative address refused => exact ⟨_, _, address, import?_eq_relative.1 refused⟩
  · rintro ⟨moduleName, path, address, hdot⟩
    have hrefused : w.import? moduleName = .error .relative := import?_eq_relative.2 hdot
    generalize w.target? spec = r at houtcome ⊢
    cases houtcome with
    | relative => rfl
    | malformed unaddressed => exact (unaddressed _ _ address).elim
    | notImported address' refused known =>
      obtain ⟨rfl, rfl⟩ := address.unique address'
      rw [hrefused] at refused
      exact (known (Except.error.inj refused).symm).elim
    | noAttribute address' provided | notClass address' provided | named address' provided =>
      obtain ⟨rfl, rfl⟩ := address.unique address'
      rw [World.Provides, hrefused] at provided
      cases provided

/-- Every other error is one of the parameter. -/
theorem message?_eq_none : e.message? = none ↔ e = .relative := by
  cases e <;> simp [TargetError.message?]

theorem World.Addressable.names (h : w.Addressable c) : w.Names (c.moduleName ++ ":" ++ c.qualName) c := by
  obtain ⟨e, follows, ends⟩ := h.leads
  refine ⟨⟨rfl, h.uncut, ?_, h.named⟩, h.provided, follows, ends⟩
  intro hempty
  have hprovided := h.provided
  rw [hempty] at hprovided
  cases hprovided

/-! Importable classes. -/

/-- From class to class, names are followed like those of anything else. -/
theorem follows_of_inner {e : Entity} {d : ClassId} {names : List String} (he : e.class? = some d)
    (h : w.inner? d names = some c) : ∃ f, w.Follows e names f ∧ f.class? = some c := by
  induction names generalizing e d with
  | nil =>
    cases h
    exact ⟨e, .here e, he⟩
  | cons name names ih =>
    obtain ⟨x, hx, hrest⟩ := Option.bind_eq_some_iff.1 h
    obtain ⟨f, hattribute, hf⟩ := Option.bind_eq_some_iff.1 hx
    obtain ⟨g, follows, ends⟩ := ih hf hrest
    refine ⟨g, .next ?_ ((World.attribute?_of_class he name).trans hattribute) follows, ends⟩
    rintro rfl
    cases he

/-- What a source can import can be addressed, unless its module looks like a relative one. -/
theorem World.Importable.addressable {into : String} (h : w.Importable into c)
    (habsolute : Text.startsWith "." c.moduleName = false) : w.Addressable c := by
  obtain ⟨m, e, d, hm, he, hd, hinner⟩ := h.found
  obtain ⟨f, follows, ends⟩ := follows_of_inner hd hinner
  have hmodule : c.moduleName.isEmpty = false := by
    rw [Bool.eq_false_iff, ne_eq, String.isEmpty_iff, ← String.toList_eq_nil_iff]
    exact h.module.nonempty
  have hattribute : w.attribute? (.module c.moduleName) (Text.firstPiece '.' c.qualName) = some e := by
    rw [World.attribute?, hm, Option.bind_some, he]
  refine ⟨h.module.not_mem (by decide), ?_, ?_, f, ?_, ends⟩
  · intro hempty
    exact h.path.nonempty (String.toList_eq_nil_iff.2 hempty)
  · simp [World.Provides, World.import?, hmodule, habsolute, World.hasModule, hm]
  · rw [Text.split_eq]
    exact .next (by rintro ⟨⟩) hattribute follows

/-! The command. -/

/-- What an error of a target stops the command with. -/
def TargetError.stop : TargetError → Stop
  | .relative => .escaped (.target .relative)
  | _ => .usage

theorem stop_eq_usage : e.stop = .usage ↔ e ≠ .relative := by
  cases e <;> simp [TargetError.stop]

theorem target_run (spec : String) (s : CommandState) :
    (target spec).run s = ((s.session.world.target? spec).mapError TargetError.stop, s) := by
  have hworld : world.run s = (.ok s.session.world, s) := rfl
  unfold target
  rw [run_bind_of_ok hworld]
  split
  next c h =>
    rw [h]
    rfl
  next h =>
    rw [h]
    rfl
  next e hother h =>
    rw [h, Except.mapError, stop_eq_usage.2 hother]
    rfl

theorem target_run_iff {s : CommandState} {r : Except Stop ClassId} :
    (target spec).run s = (r, s) ↔ (s.session.world.target? spec).mapError TargetError.stop = r := by
  rw [target_run]
  constructor
  · exact fun h => (Prod.mk.inj h).1
  · exact fun h => h ▸ rfl

/-- A target comes to the class that it names or to a refusal that says what is wrong with the parameter,
unless its module is relative, and then to neither; the command stops with a usage error on just these
refusals. A class comes out of its own address. -/
theorem target_named (w : World) (spec : String) :
    (∀ c, w.target? spec = .ok c ↔ w.Names spec c) ∧
    (w.target? spec = .error .relative ↔ RelativeTarget spec) ∧
    (¬ RelativeTarget spec → (∃ c, w.Names spec c) ∨
      ∃ e message, w.target? spec = .error e ∧ e.message? = some message) ∧
    (∀ s : CommandState, s.session.world = w →
      ((target spec).run s = (.error .usage, s) ↔ ¬ RelativeTarget spec ∧ ∀ c, ¬ w.Names spec c) ∧
      ∀ c, (target spec).run s = (.ok c, s) ↔ w.Names spec c) ∧
    ∀ c, w.Addressable c → w.target? (c.moduleName ++ ":" ++ c.qualName) = .ok c := by
  refine ⟨fun c => target?_eq_ok, target?_eq_relative, fun hrelative => ?_, fun s hs => ?_,
    fun c hc => target?_eq_ok.2 hc.names⟩
  · cases htarget : w.target? spec with
    | ok c => exact Or.inl ⟨c, target?_eq_ok.1 htarget⟩
    | error e =>
      right
      cases hmessage : e.message? with
      | none =>
        rw [message?_eq_none.1 hmessage] at htarget
        exact (hrelative (target?_eq_relative.1 htarget)).elim
      | some message => exact ⟨e, message, rfl, hmessage⟩
  · refine ⟨?_, fun c => ?_⟩
    · rw [target_run_iff, hs, ← target?_eq_relative (w := w)]
      simp only [← target?_eq_ok]
      cases w.target? spec with
      | ok c => simp [Except.mapError]
      | error e => simp [Except.mapError, stop_eq_usage]
    · rw [target_run_iff, hs, ← target?_eq_ok]
      cases w.target? spec <;> simp [Except.mapError]

end

namespace Addressed

/-- A class within a class. -/
def inner : ClassId := ⟨"app.models", "Outer.Inner", 0⟩

def world : World :=
  let outer : ClassId := ⟨"app.models", "Outer", 0⟩
  { World.standard with
    classes := World.standard.classes ++
      [{ id := outer, lineage := [outer, ClassId.object] },
        { id := inner, lineage := [inner, ClassId.object] }]
    modules := World.standard.modules ++
      [{ name := "app.models", attributes := [("Outer", .cls outer)] }]
    nested := [((outer, "Inner"), inner)] }

theorem inner_addressable : world.Addressable inner := by
  have himportable : world.Importable "gen" inner := by decide +kernel
  exact himportable.addressable (by decide +kernel)

theorem no_address (moduleName path : String) : ¬ Address "app.models" moduleName path := by
  intro h
  have hcolon : ':' ∈ "app.models".toList := by
    rw [h.text]
    simp
  exact absurd hcolon (by decide)

/-- The inner class comes out of its address, and the module by itself is refused. -/
theorem inner_named : world.Addressable inner ∧
    world.target? "app.models:Outer.Inner" = .ok inner ∧
    (target "app.models:Outer.Inner").run { session := { world := world, files := {} } } =
      (.ok inner, { session := { world := world, files := {} } }) ∧
    ¬ RelativeTarget "app.models" ∧
    ∃ e message, world.target? "app.models" = .error e ∧ e.message? = some message := by
  have hnamed := target_named world "app.models:Outer.Inner"
  have hfound : world.target? "app.models:Outer.Inner" = .ok inner := hnamed.2.2.2.2 inner inner_addressable
  have habsolute : ¬ RelativeTarget "app.models" := by
    rintro ⟨moduleName, path, address, -⟩
    exact no_address moduleName path address
  have hrefused := (target_named world "app.models").2.2.1 habsolute
  refine ⟨inner_addressable, hfound, ?_, habsolute, hrefused.resolve_left ?_⟩
  · exact ((hnamed.2.2.2.1 _ rfl).2 inner).2 ((hnamed.1 inner).1 hfound)
  · rintro ⟨c, ⟨address, -, -, -⟩⟩
    exact no_address _ _ address

/-- A module that is relative to nothing is not refused as a bad parameter. -/
theorem relative_breaks_off : ¬ ((∃ c, world.target? ".a:B" = .ok c) ∨
    ∃ e message, world.target? ".a:B" = .error e ∧ e.message? = some message) := by
  have hrelative : world.target? ".a:B" = .error .relative := by decide +kernel
  rw [hrelative]
  rintro (⟨c, hc⟩ | ⟨e, message, he, hmessage⟩)
  · cases hc
  · cases he
    cases hmessage

end Addressed

end ModelContracts
