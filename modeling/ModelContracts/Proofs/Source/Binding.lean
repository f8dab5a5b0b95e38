import Mathlib.Data.List.Induction
import ModelContracts.Proofs.Build.Making

/-!
What statements bind. A run of statements changes a name of the module only by a statement that binds
it, and the last such statement tells what the name means in the end. So the version that a module
shows can be told from its source, when it is a text that the source sets.
-/

namespace ModelContracts

namespace Statement

def binds : Statement → List String
  | .plain _ s => s.binds
  | .function name _ | .classDef _ _ name _ _ => [name]

/-- The text to which a statement sets a name. -/
def textFor? (name : String) : Statement → Option String
  | .plain _ (.setText n text) => if n = name then some text else none
  | _ => none

/-- The text to which the last statement that binds a name sets it. -/
def lastText? (name : String) (statements : List Statement) : Option String :=
  (statements.reverse.find? fun s => name ∈ s.binds).bind (textFor? name)

theorem lastText?_concat (name : String) (statements : List Statement) (s : Statement) :
    lastText? name (statements ++ [s]) =
      if name ∈ s.binds then s.textFor? name else lastText? name statements := by
  by_cases hs : name ∈ s.binds <;> simp [lastText?, hs]

/-- Statements that do not bind a name do not count. -/
theorem lastText?_append {name : String} {later : List Statement}
    (h : ∀ s ∈ later, name ∉ s.binds) (before : List Statement) :
    lastText? name (before ++ later) = lastText? name before := by
  induction later using List.reverseRecOn with
  | nil => rw [List.append_nil]
  | append_singleton later s ih =>
    rw [← List.append_assoc, lastText?_concat, if_neg (h s (List.mem_concat_self))]
    exact ih fun t ht => h t (List.mem_append_left _ ht)

end Statement

namespace Execution

variable {x y : Execution} {line : Nat} {name : String}

theorem lookup_set (x : Execution) (n : String) (e : Entity) :
    (x.set n e).attributes.lookup name = if name = n then some e else x.attributes.lookup name :=
  lookup_setEntry n name e x.attributes

theorem lookup_set_of_ne {n : String} (e : Entity) (h : name ≠ n) :
    (x.set n e).attributes.lookup name = x.attributes.lookup name := by
  rw [lookup_set, if_neg h]

theorem importName_lookup {module n : String} (h : importName line module x n = .ok y)
    (hname : name ≠ n) : y.attributes.lookup name = x.attributes.lookup name := by
  unfold importName at h
  split at h
  · cases h
    exact lookup_set_of_ne _ hname
  · cases h

theorem foldlM_importName_lookup {module : String} {names : List String}
    (h : names.foldlM (importName line module) x = .ok y) (hname : name ∉ names) :
    y.attributes.lookup name = x.attributes.lookup name := by
  induction names generalizing x with
  | nil =>
    cases h
    rfl
  | cons n rest ih =>
    rw [List.foldlM_cons] at h
    obtain ⟨x₁, himport, hrest⟩ := except_bind_ok h
    obtain ⟨hn, hnot⟩ := List.ne_and_not_mem_of_not_mem_cons hname
    exact (ih hrest hnot).trans (importName_lookup himport hn)

theorem importNames_lookup {module : String} {names : List String}
    (h : importNames line module names x = .ok y) (hname : name ∉ names) :
    y.attributes.lookup name = x.attributes.lookup name := by
  unfold importNames at h
  split at h
  · cases h
  · exact foldlM_importName_lookup h hname

theorem runSimple_lookup {s : PlainStatement} (h : runSimple line x s = .ok y)
    (hname : name ∉ s.binds) : y.attributes.lookup name = x.attributes.lookup name := by
  cases s with
  | nothing | call =>
    cases h
    rfl
  | setText | setNumber =>
    cases h
    exact lookup_set_of_ne _ (by simpa [PlainStatement.binds] using hname)
  | importNames => exact importNames_lookup h hname
  | importModule =>
    simp only [runSimple, importModule] at h
    split at h
    · cases h
    · cases h
      exact lookup_set_of_ne _ (by simpa [PlainStatement.binds] using hname)
  | fail =>
    simp only [runSimple, fail] at h
    split at h <;> cases h
  | mention => rw [map_const_ok h]

theorem runPlain_lookup {s : PlainStatement} (h : runPlain line x s = .ok y)
    (hname : name ∉ s.binds) : y.attributes.lookup name = x.attributes.lookup name := by
  unfold runPlain at h
  split at h
  · split at h
    · rw [map_const_ok h]
    · split at h
      · cases h
      · cases h
      · cases h
        rfl
  · exact runSimple_lookup h hname

theorem runClass_lookup {decorators : List Decorator} {body : List Definition} {n : String}
    {base : Option String} (h : runClass decorators line n base body x = .ok y) (hname : name ≠ n) :
    y.attributes.lookup name = x.attributes.lookup name := by
  obtain ⟨markers, -, h₁⟩ := except_bind_ok h
  obtain ⟨c, -, h₂⟩ := except_bind_ok h₁
  obtain ⟨_, -, h₃⟩ := except_bind_ok h₂
  cases h₃
  exact lookup_set_of_ne (x := { x with world := _ }) _ hname

/-- A statement leaves the names alone that it does not bind. -/
theorem run_lookup {s : Statement} (h : x.run s = .ok y) (hname : name ∉ s.binds) :
    y.attributes.lookup name = x.attributes.lookup name := by
  cases s with
  | plain => exact runPlain_lookup h hname
  | function n =>
    cases h
    exact lookup_set_of_ne _ (by simpa [Statement.binds] using hname)
  | classDef => exact runClass_lookup h (by simpa [Statement.binds] using hname)

theorem run_text {s : Statement} {text : String} (h : x.run s = .ok y)
    (htext : s.textFor? name = some text) : y.attributes.lookup name = some (.value (.text text)) := by
  unfold Statement.textFor? at htext
  split at htext
  · split_ifs at htext with hn
    subst hn
    cases htext
    cases h
    exact (lookup_set ..).trans (if_pos rfl)
  · cases htext

/-- A name to which the last statement that binds it sets a text has that text in the end. -/
theorem runAll_lastText {statements : List Statement} {text : String}
    (h : x.runAll statements = .ok y) (htext : Statement.lastText? name statements = some text) :
    y.attributes.lookup name = some (.value (.text text)) := by
  induction statements using List.reverseRecOn generalizing y with
  | nil => cases htext
  | append_singleton statements s ih =>
    unfold runAll at h
    rw [List.foldlM_append] at h
    obtain ⟨z, hbefore, hlast⟩ := except_bind_ok h
    rw [List.foldlM_cons] at hlast
    obtain ⟨y', hs, hy⟩ := except_bind_ok hlast
    cases hy
    rw [Statement.lastText?_concat] at htext
    split_ifs at htext with hbinds
    · exact run_text hs htext
    · exact (run_lookup hs hbinds).trans (ih hbefore htext)

end Execution

/-- The last statement of a source that binds the version name sets it to a version. -/
def SetsVersion (source version : String) : Prop :=
  ∃ statements, Statement.ofSource source = .ok statements ∧
    Statement.lastText? versionName statements = some version

theorem Compilation.outcome_version {w w' : World} {number : Nat} {source name version : String}
    {m : Module} (h : outcome w number source name = .ok (w', m))
    (hversion : SetsVersion source version) : m.version? = some version := by
  obtain ⟨statements, hstatements, hlast⟩ := hversion
  unfold outcome at h
  rw [hstatements] at h
  dsimp only at h
  split at h
  · cases h
  next x hx =>
    cases h
    have hfinal := Execution.runAll_lastText hx hlast
    simp only [Module.version?, Module.text?, Execution.module, hfinal]

theorem Session.Executed.version {s : Session} {m : Module} {source version : String}
    (h : s.Executed m source) (hversion : SetsVersion source version) :
    m.version? = some version := by
  obtain ⟨-, -, w, w', name, houtcome⟩ := h
  exact Compilation.outcome_version houtcome hversion

end ModelContracts
