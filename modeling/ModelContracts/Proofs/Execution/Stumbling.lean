import ModelContracts.Proofs.Execution.Numbers

/-!
Executing the same source twice when it fails. A statement that fails the first time fails the second
time, over the same line and with the same text: what a failure tells of a class is its name, which
does not have the number.
-/

namespace ModelContracts

namespace Renumbering

variable {ρ : Renumbering}

/-- What fails the first time fails the second time, in the same way. -/
def Stumbles {α β : Type} (r : Except LoadFailure α) (r' : Except LoadFailure β) : Prop :=
  ∀ f, r = .error f → r' = .error f

/-- Twins of which each may touch every module, in worlds with the same packages. -/
structure Doubles (ρ : Renumbering) (x x' : Execution) : Prop extends ρ.Twins x x' where
  others : ρ.others = []
  packages : x'.world.packages = x.world.packages

namespace Doubles

open Execution Twins

variable {x x' : Execution} {line : Nat}

theorem not_mem (h : ρ.Doubles x x') (m : String) : m ∉ ρ.others := by
  rw [h.others]
  exact List.not_mem_nil

theorem import_eq (h : ρ.Doubles x x') (m : String) : x'.world.import? m = x.world.import? m := by
  have hmodule (n : String) : x'.world.hasModule n = x.world.hasModule n :=
    h.world.hasModule_eq (h.not_mem n)
  have hmissing (names : List String) (before : Option String) :
      x'.world.firstMissing before names = x.world.firstMissing before names := by
    induction names generalizing before with
    | nil => rfl
    | cons n names ih => rw [World.firstMissing, World.firstMissing, hmodule, ih]
  unfold World.import?
  rw [hmodule, hmissing, h.packages]

/-- What follows a step that both have made. -/
theorem after (h : ρ.Doubles x x') {y y' : Execution} (htwins : ρ.Twins y y') (hy : Grows x y)
    (hy' : Grows x' y') : ρ.Doubles y y' where
  toTwins := htwins
  others := h.others
  packages := by rw [hy'.world.packages, hy.world.packages, h.packages]

theorem simpleName_cls (c : ClassId) : (ρ.cls c).simpleName = c.simpleName := by
  unfold cls
  split_ifs <;> rfl

theorem missingAttribute_entity (line : Nat) (e : Entity) (name : String) :
    missingAttribute line (ρ.entity e) name = missingAttribute line e name := by
  cases e with
  | cls c =>
    simp only [entity, missingAttribute, simpleName_cls]
  | _ => rfl

theorem walk_stumbles (h : ρ.Doubles x x') {names : List String} {e : Entity} (he : ρ.Reaches e) :
    Stumbles (x.walk line e names) (x'.walk line (ρ.entity e) names) := by
  induction names generalizing e with
  | nil => exact nofun
  | cons name rest ih =>
    obtain ⟨hsame, hreaches⟩ := h.world.attribute_agree he name
    intro f hf
    unfold walk at hf ⊢
    rw [hsame]
    split at hf
    next e' he' =>
      rw [he']
      exact ih (hreaches e' he') f hf
    next hnone =>
      cases hf
      rw [hnone, Option.map_none, missingAttribute_entity]

theorem resolve_stumbles (h : ρ.Doubles x x') (name : String) :
    Stumbles (x.resolve line name) (x'.resolve line name) := by
  intro f hf
  unfold Execution.resolve at hf ⊢
  split_ifs at hf ⊢
  split at hf
  next hempty => cases hf; rfl
  next first rest _ =>
    obtain ⟨hsame, hreaches⟩ := h.lookup_agree first
    rw [hsame]
    split at hf
    next e he =>
      rw [he]
      exact h.walk_stumbles (hreaches e he) f hf
    next hnone =>
      cases hf
      rw [hnone]
      rfl

/-! Plain statements. -/

theorem importName_stumbles (h : ρ.Doubles x x') {module : String} (hm : module ∉ ρ.others)
    (name : String) :
    Stumbles (importName line module x name) (importName line module x' name) := by
  obtain ⟨hsame, -⟩ := h.world.attribute_agree (e := .module module) hm name
  intro f hf
  unfold importName at hf ⊢
  split at hf
  · cases hf
  next hnone =>
    cases hf
    have hnone' : x'.world.attribute? (.module module) name = none := by
      rw [show Entity.module module = ρ.entity (.module module) from rfl, hsame, hnone]
      rfl
    rw [hnone']

/-- A fold fails where one of its steps does, and the steps before it go on alike. -/
theorem foldlM_stumbles {α : Type} {f : Execution → α → Execution.Step}
    (hstep : ∀ a x x', ρ.Doubles x x' → ρ.Follows (f x a) (f x' a) ∧ Stumbles (f x a) (f x' a))
    (hgrows : ∀ a x y, f x a = .ok y → Grows x y) (h : ρ.Doubles x x') (l : List α) :
    Stumbles (l.foldlM f x) (l.foldlM f x') := by
  induction l generalizing x x' with
  | nil => exact nofun
  | cons a l ih =>
    obtain ⟨hfollows, hstumbles⟩ := hstep a x x' h
    intro e he
    rw [List.foldlM_cons] at he ⊢
    rcases except_bind_error he with hfirst | ⟨y, hy, hrest⟩
    · rw [hstumbles e hfirst]
      rfl
    · obtain ⟨y', hy', htwins⟩ := hfollows y hy
      rw [hy']
      exact ih (h.after htwins (hgrows a x y hy) (hgrows a x' y' hy')) e hrest

theorem runSimple_stumbles (h : ρ.Doubles x x') (s : PlainStatement) :
    Stumbles (runSimple line x s) (runSimple line x' s) := by
  cases s with
  | nothing | call => exact nofun
  | setText | setNumber => exact nofun
  | importNames module names =>
    intro f hf
    simp only [runSimple, importNames, h.import_eq] at hf ⊢
    split at hf
    · cases hf
      rfl
    · refine h.foldlM_stumbles (fun name x x' hd => ?_) (fun _ _ _ => importName_grows) names f hf
      have hm := hd.not_mem module
      exact ⟨hd.toTwins.importName_follows hm name, hd.importName_stumbles hm name⟩
  | importModule module name =>
    intro f hf
    simp only [runSimple, importModule, h.import_eq] at hf ⊢
    split at hf
    · cases hf
      rfl
    · cases hf
  | fail kind text =>
    intro f hf
    simp only [runSimple, fail] at hf ⊢
    split at hf
    next e he =>
      cases hf
      rw [h.resolve_stumbles kind f he]
    next found hfound =>
      cases hf
      rw [(h.resolve_ok hfound).1]
  | mention name =>
    intro f hf
    simp only [runSimple] at hf ⊢
    rcases hr : x.resolve line name with e | found
    · rw [hr] at hf
      cases hf
      rw [h.resolve_stumbles name f hr]
      rfl
    · rw [hr] at hf
      cases hf

theorem callFunction_stumbles (h : ρ.Doubles x x')
    (body : List (Nat × PlainStatement)) :
    Stumbles (callFunction body x) (callFunction body x') := by
  have hbody : Stumbles (body.foldlM (fun y (n, s) => runSimple n y s) x)
      (body.foldlM (fun y (n, s) => runSimple n y s) x') := by
    refine h.foldlM_stumbles (fun l x x' hd => ?_) (fun _ _ _ => runSimple_grows) body
    exact ⟨hd.toTwins.runSimple_follows fun m _ => hd.not_mem m, hd.runSimple_stumbles l.2⟩
  intro f hf
  unfold callFunction at hf ⊢
  rcases hr : body.foldlM (fun y (n, s) => runSimple n y s) x with e | z
  · rw [hr] at hf
    cases hf
    rw [hbody f hr]
    rfl
  · rw [hr] at hf
    cases hf

theorem runPlain_stumbles (h : ρ.Doubles x x') (s : PlainStatement) :
    Stumbles (runPlain line x s) (runPlain line x' s) := by
  cases s with
  | call name argument =>
    simp only [runPlain, h.functions]
    rcases x.functions.lookup name with _ | body
    · intro f hf
      dsimp only at hf ⊢
      rcases hr : x.resolve line name with e | found
      · rw [hr] at hf
        cases hf
        rw [h.resolve_stumbles name f hr]
      · rw [hr] at hf
        rw [(h.resolve_ok hr).1]
        cases argument <;> cases hf
        rfl
    · exact h.callFunction_stumbles body
  | _ =>
    simp only [runPlain]
    exact h.runSimple_stumbles _

/-! Classes. -/

theorem decoratorMarker_stumbles (h : ρ.Doubles x x') (d : Decorator) :
    Stumbles (x.decoratorMarker d) (x'.decoratorMarker d) := by
  intro f hf
  rcases except_bind_error hf with hresolve | ⟨e, -, hmake⟩
  · unfold decoratorMarker
    rw [h.resolve_stumbles d.name f hresolve]
    rfl
  · cases e with
    | cls c =>
      dsimp only at hmake
      split at hmake <;> cases hmake
    | _ => cases hmake

theorem decorateOuter_stumbles (h : ρ.Doubles x x') (d : Decorator) :
    Stumbles (x.decorateOuter d) (x'.decorateOuter d) := by
  intro f hf
  unfold decorateOuter
  rcases except_bind_error hf with hresolve | ⟨e, he, hcheck⟩
  · rw [h.resolve_stumbles d.name f hresolve]
    rfl
  · obtain ⟨he', hreaches⟩ := h.resolve_ok he
    rw [he']
    cases e with
    | cls c =>
      have hproperty : ρ.cls c = ClassId.builtin "property" ↔ c = ClassId.builtin "property" :=
        cls_eq_old hreaches (old_of_zero rfl)
      have hrecord := h.world.record_eq hreaches
      simp only [entity, bind, Except.bind, hproperty, hrecord, simpleName_cls] at hcheck ⊢
      exact hcheck
    | _ => cases hcheck

theorem baseClass_stumbles (h : ρ.Doubles x x') (base : Option String) :
    Stumbles (x.baseClass line base) (x'.baseClass line base) := by
  intro f hf
  cases base with
  | none => cases hf
  | some name =>
    unfold baseClass
    rcases except_bind_error hf with hresolve | ⟨e, he, hbase⟩
    · dsimp only
      rw [h.resolve_stumbles name f hresolve]
      rfl
    · obtain ⟨he', hreaches⟩ := h.resolve_ok he
      dsimp only
      rw [he']
      cases e with
      | cls c =>
        simp only [entity, bind, Except.bind, contains_finalClasses hreaches, simpleName_cls] at hbase ⊢
        split_ifs at hbase ⊢
        · exact hbase
        · cases hbase
      | value v => cases v <;> cases hbase; rfl
      | _ => cases hbase

theorem mapM_stumbles {α β γ : Type} {f : α → Except LoadFailure β} {f' : α → Except LoadFailure γ}
    {g : β → γ} (hok : ∀ a b, f a = .ok b → f' a = .ok (g b))
    (hf : ∀ a, Stumbles (f a) (f' a)) (l : List α) : Stumbles (l.mapM f) (l.mapM f') := by
  induction l with
  | nil => exact nofun
  | cons a l ih =>
    intro e he
    rw [List.mapM_cons] at he ⊢
    rcases except_bind_error he with hfirst | ⟨b, hb, hrest⟩
    · rw [hf a e hfirst]
      rfl
    · rw [hok a b hb]
      rcases except_bind_error hrest with htail | ⟨bs, -, hnone⟩
      · simp only [bind, Except.bind, ih e htail]
      · cases hnone

theorem decorate_stumbles (h : ρ.Doubles x x') (scope : List (String × Defined)) (d : Decorator) :
    Stumbles (x.decorate scope d) (x'.decorate scope d) := by
  intro f hf
  unfold decorate at hf ⊢
  split at hf
  · exact h.decorateOuter_stumbles d f hf
  · exact hf
  · exact hf

theorem define_stumbles (h : ρ.Doubles x x') (scope : List (String × Defined)) (f : Definition) :
    Stumbles (x.define scope f) (x'.define scope f) := by
  have hok : ∀ d v, x.decorate scope d = .ok v → x'.decorate scope d = .ok (id v) :=
    fun d v hv => h.decorate_ok hv
  have hvalues := mapM_stumbles hok (h.decorate_stumbles scope) f.decorators
  intro e he
  unfold define
  rcases except_bind_error he with hfirst | ⟨values, -, hnone⟩
  · rw [hvalues e hfirst]
    rfl
  · cases hnone

theorem runBody_stumbles (h : ρ.Doubles x x') (body : List Definition) :
    Stumbles (x.runBody body) (x'.runBody body) := by
  unfold runBody
  generalize ([] : List (String × Defined)) = scope
  induction body generalizing scope with
  | nil => exact nofun
  | cons f body ih =>
    intro e he
    rw [List.foldlM_cons] at he ⊢
    rcases except_bind_error he with hfirst | ⟨next, hnext, hrest⟩
    · rw [h.define_stumbles scope f e hfirst]
      rfl
    · rw [h.define_ok hnext]
      exact ih next e hrest

theorem runClass_stumbles (h : ρ.Doubles x x') (decorators : List Decorator) (body : List Definition)
    (name : String) (base : Option String) :
    Stumbles (runClass decorators line name base body x)
      (runClass decorators line name base body x') := by
  have hmarkers := mapM_stumbles (fun d m hm => (h.decoratorMarker_ok (d := d) hm).1)
    h.decoratorMarker_stumbles decorators
  intro f hf
  unfold runClass
  rcases except_bind_error hf with hfirst | ⟨markers, hm, hrest⟩
  · rw [hmarkers f hfirst]
    rfl
  rw [(mapM_ok (fun d m hm => h.decoratorMarker_ok (d := d) hm) hm).1]
  rcases except_bind_error hrest with hsecond | ⟨c, hc, hrest⟩
  · simp only [bind, Except.bind, h.baseClass_stumbles base f hsecond]
  rw [(h.baseClass_ok hc).1]
  rcases except_bind_error hrest with hthird | ⟨_, -, hnone⟩
  · simp only [bind, Except.bind, h.runBody_stumbles body f hthird]
  · cases hnone

theorem run_stumbles (h : ρ.Doubles x x') (s : Statement) :
    Stumbles (x.run s) (x'.run s) := by
  cases s with
  | plain line s => exact h.runPlain_stumbles s
  | function => exact nofun
  | classDef decorators line name base body => exact h.runClass_stumbles decorators body name base

theorem runAll_stumbles (h : ρ.Doubles x x') (statements : List Statement) :
    Stumbles (x.runAll statements) (x'.runAll statements) := by
  refine h.foldlM_stumbles (f := run) (fun s x x' hd => ?_) (fun _ _ _ => run_grows) statements
  exact ⟨hd.toTwins.run_follows fun m _ => hd.not_mem m, hd.run_stumbles s⟩

end Doubles

end Renumbering

@[simp] theorem World.packages_putModule (w : World) (m : Module) :
    (w.putModule m).packages = w.packages := by
  unfold putModule
  split <;> rfl

/-- A source that fails from a world fails in the same way under another number. -/
theorem Compilation.outcome_stumbles {w : World} {number number' bound : Nat} {source name : String}
    {f : LoadFailure} (hw : w.Within bound) (hbound : bound < number) (hbound' : bound < number')
    (h : outcome w number source name = .error f) : outcome w number' source name = .error f := by
  let ρ : Renumbering :=
    { module := name, first := number, second := number', bound := bound, others := []
      undotted := nofun, builtins := List.not_mem_nil, bound_lt_first := hbound
      bound_lt_second := hbound' }
  unfold outcome at h ⊢
  split at h
  · exact h
  next statements hsource =>
    have hdoubles : ρ.Doubles
        { world := w.putModule ⟨name, [], number⟩, name := name, number := number }
        { world := w.putModule ⟨name, [], number'⟩, name := name, number := number' } :=
      { ρ.twins_start hw hbound hw hbound' (World.Same.refl ..) (hw.apart name statements) with
        others := rfl
        packages := by simp }
    dsimp only at h ⊢
    split at h
    next e he =>
      cases h
      rw [hdoubles.runAll_stumbles statements f he]
    · cases h

end ModelContracts
