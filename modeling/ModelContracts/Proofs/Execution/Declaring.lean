import ModelContracts.Proofs.Execution.Numbers
import ModelContracts.Proofs.Source.Binding

/-!
What a run declares. A module has each name once, and a class that stands in the world stays what it is:
a run adds classes one by one, each below the base that was found for it.
-/

namespace ModelContracts

theorem mem_keys_setEntry {α β : Type} [DecidableEq α] {key k : α} {value : β} {l : List (α × β)} :
    k ∈ (setEntry key value l).map (·.1) ↔ k = key ∨ k ∈ l.map (·.1) := by
  induction l with
  | nil => simp [setEntry]
  | cons e rest ih =>
    obtain ⟨a, b⟩ := e
    rw [setEntry]
    split_ifs with ha
    · simp [ha]
    · rw [List.map_cons, List.mem_cons, ih, List.map_cons, List.mem_cons]
      exact or_left_comm

theorem nodup_setEntry {α β : Type} [DecidableEq α] (key : α) (value : β) {l : List (α × β)}
    (h : (l.map (·.1)).Nodup) : ((setEntry key value l).map (·.1)).Nodup := by
  induction l with
  | nil => simp [setEntry]
  | cons e rest ih =>
    obtain ⟨a, b⟩ := e
    obtain ⟨hnot, hrest⟩ := List.nodup_cons.1 h
    rw [setEntry]
    split_ifs with ha
    · exact List.nodup_cons.2 ⟨ha ▸ hnot, hrest⟩
    · refine List.nodup_cons.2 ⟨fun hmem => ?_, ih hrest⟩
      rcases mem_keys_setEntry.1 hmem with heq | hmem
      · exact ha heq
      · exact hnot hmem

/-- An entry among entries with different keys is the one that is found. -/
theorem lookup_of_mem {α β : Type} [BEq α] [LawfulBEq α] {l : List (α × β)} {k : α} {v : β}
    (hkeys : (l.map (·.1)).Nodup) (h : (k, v) ∈ l) : l.lookup k = some v := by
  induction l with
  | nil => cases h
  | cons e rest ih =>
    obtain ⟨a, b⟩ := e
    obtain ⟨hnot, hrest⟩ := List.nodup_cons.1 hkeys
    rcases List.mem_cons.1 h with heq | h
    · cases heq
      exact List.lookup_cons_self
    · have hne : (k == a) = false := beq_false_of_ne fun heq => hnot (List.mem_map.2 ⟨_, h, heq⟩)
      rw [List.lookup_cons, hne]
      exact ih hrest h

namespace World

theorem find?_marks (w : World) (c : ClassId) (ms : List Marker) (d : ClassId) :
    (ms.foldl (fun w m => w.mark c m) w).find? d = w.find? d := by
  induction ms generalizing w with
  | nil => rfl
  | cons m ms ih => exact ih (w.mark c m)

end World

namespace Execution

variable {x y : Execution} {line : Nat} {name : String}

/-! The names of a module. -/

section

variable {P : List (String × Entity) → Prop} (hP : ∀ l n e, P l → P (setEntry n e l))

include hP in
theorem importNames_attributes {m : String} {names : List String}
    (h : importNames line m names x = .ok y) (hx : P x.attributes) : P y.attributes := by
  have hname : ∀ (z : Execution) n z', P z.attributes → importName line m z n = .ok z' →
      P z'.attributes := by
    intro z n z' hz himport
    unfold importName at himport
    split at himport
    · cases himport
      exact hP _ _ _ hz
    · cases himport
  unfold importNames at h
  split at h
  · cases h
  · exact foldlM_ok (P := fun z : Execution => P z.attributes) hname hx h

include hP in
theorem runSimple_attributes {s : PlainStatement} (h : runSimple line x s = .ok y)
    (hx : P x.attributes) : P y.attributes := by
  cases s with
  | nothing | call =>
    cases h
    exact hx
  | setText | setNumber =>
    cases h
    exact hP _ _ _ hx
  | importNames => exact importNames_attributes hP h hx
  | importModule =>
    simp only [runSimple, importModule] at h
    split at h
    · cases h
    · cases h
      exact hP _ _ _ hx
  | fail =>
    simp only [runSimple, fail] at h
    split at h <;> cases h
  | mention =>
    rw [map_const_ok h]
    exact hx

include hP in
/-- What holds of the attributes however a name is set, each statement keeps. -/
theorem run_attributes {s : Statement} (h : x.run s = .ok y) (hx : P x.attributes) :
    P y.attributes := by
  cases s with
  | plain line s =>
    simp only [run, runPlain] at h
    split at h
    · split at h
      · rw [map_const_ok h]
        exact hx
      · split at h
        · cases h
        · cases h
        · cases h
          exact hx
    · exact runSimple_attributes hP h hx
  | function n =>
    cases h
    exact hP _ _ _ hx
  | classDef =>
    obtain ⟨markers, -, h₁⟩ := except_bind_ok h
    obtain ⟨c, -, h₂⟩ := except_bind_ok h₁
    obtain ⟨_, -, h₃⟩ := except_bind_ok h₂
    cases h₃
    exact hP _ _ _ hx

end

/-- A module has each name once. -/
theorem runAll_keys {statements : List Statement} (h : x.runAll statements = .ok y)
    (hx : (x.attributes.map (·.1)).Nodup) : (y.attributes.map (·.1)).Nodup :=
  foldlM_ok (P := fun z : Execution => (z.attributes.map (·.1)).Nodup)
    (fun _ _ _ hz hrun => run_attributes (P := fun l => (l.map (·.1)).Nodup)
      (fun _ n e => nodup_setEntry n e) hrun hz) hx h

/-! The classes of a module. -/

/-- A declaration adds its class to the world, unless there is one, below the base that is found. -/
theorem runClass_find {decorators : List Decorator} {body : List Definition} {n : String}
    {base : Option String} (h : runClass decorators line n base body x = .ok y) :
    ∃ b, x.baseClass line base = .ok b ∧ ∀ d, y.world.find? d = (x.world.find? d).or
      (if (⟨x.name, n, x.number⟩ : ClassId) = d then
        some { id := ⟨x.name, n, x.number⟩, lineage := ⟨x.name, n, x.number⟩ :: x.world.lineage b }
      else none) := by
  obtain ⟨markers, -, h₁⟩ := except_bind_ok h
  obtain ⟨b, hb, h₂⟩ := except_bind_ok h₁
  obtain ⟨_, -, h₃⟩ := except_bind_ok h₂
  cases h₃
  refine ⟨b, hb, fun d => ?_⟩
  dsimp only
  rw [World.find?_marks]
  exact World.find?_declared x.world _ d

end Execution

end ModelContracts
