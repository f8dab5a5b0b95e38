import ModelContracts.Proofs.Extension.Resolving

/-!
What a registry of extensions tells of the calls before. Every call registers one pair of contracts or
none; a call that cannot find one of its two contracts registers none and leaves the registry as it is.
After any calls the registry holds exactly the pairs that were registered: the targets in the order of
their first one, and the extensions of each in the order of the calls.
-/

namespace ModelContracts

/-! Tables that list a function. -/

section Tables

variable {α β : Type} [DecidableEq α]

theorem setEntry_listed {l : List α} (hl : l.Nodup) (f : α → β) (key : α) (value : β) :
    setEntry key value (l.map fun a => (a, f a)) =
      (if key ∈ l then l else l ++ [key]).map fun a => (a, if a = key then value else f a) := by
  induction l with
  | nil => simp [setEntry]
  | cons a l ih =>
    obtain ⟨hnot, hrest⟩ := List.nodup_cons.1 hl
    rw [List.map_cons, setEntry]
    by_cases ha : a = key
    · subst ha
      have hsame : (l.map fun b => (b, f b)) = l.map fun b => (b, if b = a then value else f b) :=
        List.map_congr_left fun b hb => by rw [if_neg fun heq : b = a => hnot (heq ▸ hb)]
      simp [hsame]
    · rw [if_neg ha, ih hrest]
      by_cases hmem : key ∈ l <;> simp [hmem, ha, Ne.symm ha]

theorem lookup_listed [BEq α] [LawfulBEq α] (l : List α) (f : α → β) (key : α) :
    (l.map fun a => (a, f a)).lookup key = if key ∈ l then some (f key) else none := by
  induction l with
  | nil => rfl
  | cons a l ih =>
    rw [List.map_cons, lookup_cons_ite, ih]
    by_cases ha : key = a <;> simp [ha]

end Tables

namespace ExtensionRegistry

/-- The targets of some registrations in the order of the first one of each. -/
def firstTargets (h : List (ClassId × ClassId)) : List ClassId := (h.map (·.1)).eraseDups

/-- The extensions that were registered for a target, in order and as often as they were. -/
def extensionsOf (h : List (ClassId × ClassId)) (target : ClassId) : List ClassId :=
  (h.filter (·.1 = target)).map (·.2)

variable {r : ExtensionRegistry} {h : List (ClassId × ClassId)} {target ext c : ClassId}

theorem nodup_firstTargets (h : List (ClassId × ClassId)) : (firstTargets h).Nodup :=
  nodup_eraseDups _

theorem mem_firstTargets : c ∈ firstTargets h ↔ ∃ e, (c, e) ∈ h := by
  simp [firstTargets, List.mem_eraseDups]

theorem mem_firstTargets_iff_ne_nil : c ∈ firstTargets h ↔ extensionsOf h c ≠ [] := by
  rw [mem_firstTargets, extensionsOf, Ne, List.map_eq_nil_iff, List.filter_eq_nil_iff]
  simp only [decide_eq_true_eq, not_forall, not_not]
  constructor
  · rintro ⟨e, he⟩
    exact ⟨(c, e), he, rfl⟩
  · rintro ⟨⟨t, e⟩, he, rfl⟩
    exact ⟨e, he⟩

theorem firstTargets_append : firstTargets (h ++ [(target, ext)]) =
    if target ∈ firstTargets h then firstTargets h else firstTargets h ++ [target] := by
  rw [firstTargets, List.map_append, List.eraseDups_append]
  have hmem : target ∈ firstTargets h ↔ target ∈ h.map (·.1) := List.mem_eraseDups
  by_cases htarget : target ∈ h.map (·.1)
  · rw [if_pos (hmem.2 htarget)]
    simp [List.removeAll, htarget, firstTargets]
  · rw [if_neg fun hin => htarget (hmem.1 hin)]
    simp [List.removeAll, htarget, firstTargets, List.eraseDups_cons]

theorem extensionsOf_append : extensionsOf (h ++ [(target, ext)]) c =
    if c = target then extensionsOf h target ++ [ext] else extensionsOf h c := by
  by_cases hc : c = target
  · simp [extensionsOf, hc]
  · simp [extensionsOf, hc, Ne.symm hc]

/-- The registry holds the registrations and nothing else. -/
def Tells (r : ExtensionRegistry) (h : List (ClassId × ClassId)) : Prop :=
  r.entries = (firstTargets h).map fun t => (t, extensionsOf h t)

theorem Tells.get (hr : r.Tells h) (c : ClassId) : r.get c = extensionsOf h c := by
  rw [ExtensionRegistry.get, hr, lookup_listed]
  by_cases hc : c ∈ firstTargets h
  · rw [if_pos hc]
    rfl
  · rw [if_neg hc]
    exact (not_not.1 (mt mem_firstTargets_iff_ne_nil.2 hc)).symm

theorem Tells.targets (hr : r.Tells h) : r.targets = firstTargets h := by
  rw [ExtensionRegistry.targets, hr]
  simp [Function.comp_def]

theorem Tells.add (hr : r.Tells h) : (r.add target ext).Tells (h ++ [(target, ext)]) := by
  have hentries : (r.add target ext).entries =
      setEntry target (extensionsOf h target ++ [ext])
        ((firstTargets h).map fun t => (t, extensionsOf h t)) := by
    rw [ExtensionRegistry.add, hr.get, hr]
  rw [Tells, hentries, setEntry_listed (nodup_firstTargets h), firstTargets_append]
  exact List.map_congr_left fun t _ => by rw [extensionsOf_append]

/-! Calls. -/

/-- What a registry is asked: to register an extension, or to be read. -/
inductive Call where
  | extend (w : World) (target ext : ContractRequest) (m : Module)
  | add (target ext : ClassId)
  | get (target : ClassId)
  | targets
  | items
  | contains (target : ClassId)
  | size

inductive Answer where
  | registered (target ext : ClassId)
  | refused (e : ExtensionError)
  | done
  | classes (cs : List ClassId)
  | items (entries : List (ClassId × List ClassId))
  | truth (b : Bool)
  | count (n : Nat)

namespace Call

def run (r : ExtensionRegistry) : Call → Answer × ExtensionRegistry
  | .extend w target ext m => match r.extend w target ext m with
    | .ok (t, e, r) => (.registered t e, r)
    | .error e => (.refused e, r)
  | .add target ext => (.done, r.add target ext)
  | .get target => (.classes (r.get target), r)
  | .targets => (.classes r.targets, r)
  | .items => (.items r.entries, r)
  | .contains target => (.truth (r.contains target), r)
  | .size => (.count r.size, r)

/-- What a call registers, whatever the registry holds. -/
def registers : Call → Option (ClassId × ClassId)
  | .extend w target ext m => match w.resolveContract m target, w.resolveContract m ext with
    | .ok t, .ok e => some (t, e)
    | _, _ => none
  | .add target ext => some (target, ext)
  | _ => none

variable {w : World} {m : Module} {wanted offered : ContractRequest} {t e : ClassId}
  {x : ExtensionError}

theorem run_extend (ht : w.resolveContract m wanted = .ok t) (he : w.resolveContract m offered = .ok e) :
    (extend w wanted offered m).run r = (.registered t e, r.add t e) := by
  simp [run, ExtensionRegistry.extend, ht, he, Bind.bind, Except.bind, Pure.pure, Except.pure]

theorem run_extend_offered (he : w.resolveContract m offered = .error x) :
    (extend w wanted offered m).run r = (.refused x, r) := by
  simp [run, ExtensionRegistry.extend, he, Bind.bind, Except.bind]

theorem run_extend_wanted (he : w.resolveContract m offered = .ok e)
    (ht : w.resolveContract m wanted = .error x) :
    (extend w wanted offered m).run r = (.refused x, r) := by
  simp [run, ExtensionRegistry.extend, ht, he, Bind.bind, Except.bind]

theorem run_registers {call : Call} (h : call.registers = some (target, ext)) :
    (call.run r).2 = r.add target ext := by
  cases call with
  | extend w wanted offered m =>
    rw [registers] at h
    cases ht : w.resolveContract m wanted with
    | error x => simp [ht] at h
    | ok t =>
      cases he : w.resolveContract m offered with
      | error x => simp [ht, he] at h
      | ok e =>
        simp only [ht, he, Option.some.injEq, Prod.mk.injEq] at h
        rw [run_extend ht he, h.1, h.2]
  | add target ext =>
    cases h
    rfl
  | get _ | targets | items | contains _ | size => cases h

theorem run_idle {call : Call} (h : call.registers = none) : (call.run r).2 = r := by
  cases call with
  | extend w wanted offered m =>
    cases he : w.resolveContract m offered with
    | error x => rw [run_extend_offered he]
    | ok e =>
      cases ht : w.resolveContract m wanted with
      | error x => rw [run_extend_wanted he ht]
      | ok t => simp [registers, ht, he] at h
  | add target ext => cases h
  | get _ | targets | items | contains _ | size => rfl

/-- A call adds what it registers to what the registry tells. -/
theorem run_tells (hr : r.Tells h) (call : Call) : (call.run r).2.Tells (h ++ call.registers.toList) := by
  cases hcall : call.registers with
  | none => simpa [run_idle hcall] using hr
  | some pair => simpa [run_registers hcall] using hr.add

end Call

/-- The registry that is left by some calls, one after the other. -/
def after (calls : List Call) : ExtensionRegistry := calls.foldl (fun r call => (call.run r).2) {}

/-- What some calls registered. -/
def history (calls : List Call) : List (ClassId × ClassId) := calls.filterMap Call.registers

theorem foldl_tells (hr : r.Tells h) (calls : List Call) :
    (calls.foldl (fun r call => (call.run r).2) r).Tells (h ++ history calls) := by
  induction calls generalizing r h with
  | nil => simpa [history] using hr
  | cons call calls ih =>
    have hstep := ih (call.run_tells hr)
    have hhistory : h ++ call.registers.toList ++ history calls = h ++ history (call :: calls) := by
      cases hcall : call.registers <;> simp [history, hcall]
    rwa [hhistory] at hstep

theorem after_tells (calls : List Call) : (after calls).Tells (history calls) :=
  foldl_tells (h := []) rfl calls

/-- After any calls a registry tells what they registered: the targets in the order of their first
registration, and for each its extensions in the order of the calls, as often as they were registered. All
ways to read it agree with that and leave it as it is, and so does every call that does not find both its
contracts. -/
theorem registry_tells (calls : List Call) :
    Call.items.run (after calls) = (.items ((firstTargets (history calls)).map fun t =>
      (t, extensionsOf (history calls) t)), after calls) ∧
    Call.targets.run (after calls) = (.classes (firstTargets (history calls)), after calls) ∧
    Call.size.run (after calls) = (.count (firstTargets (history calls)).length, after calls) ∧
    (∀ t, (Call.get t).run (after calls) = (.classes (extensionsOf (history calls) t), after calls)) ∧
    (∀ t, (Call.contains t).run (after calls) =
      (.truth (decide (t ∈ firstTargets (history calls))), after calls)) ∧
    (firstTargets (history calls)).Nodup ∧
    (∀ t, t ∈ firstTargets (history calls) ↔ extensionsOf (history calls) t ≠ []) ∧
    ∀ w wanted offered m,
      (∀ t e, w.resolveContract m wanted = .ok t → w.resolveContract m offered = .ok e →
        ∃ r, (Call.extend w wanted offered m).run (after calls) = (.registered t e, r) ∧
          history (calls ++ [.extend w wanted offered m]) = history calls ++ [(t, e)] ∧
          r = after (calls ++ [.extend w wanted offered m])) ∧
      (∀ x, w.resolveContract m offered = .error x →
        (Call.extend w wanted offered m).run (after calls) = (.refused x, after calls)) ∧
      ∀ e x, w.resolveContract m offered = .ok e → w.resolveContract m wanted = .error x →
        (Call.extend w wanted offered m).run (after calls) = (.refused x, after calls) := by
  have htells := after_tells calls
  refine ⟨by rw [Call.run, htells], by rw [Call.run, htells.targets], ?_, fun t => by rw [Call.run, htells.get],
    fun t => ?_, nodup_firstTargets _, fun t => mem_firstTargets_iff_ne_nil, fun w wanted offered m =>
      ⟨fun t e ht he => ⟨_, Call.run_extend ht he, ?_, ?_⟩, fun x => Call.run_extend_offered,
        fun e x => Call.run_extend_wanted⟩⟩
  · rw [Call.run, size, htells, List.length_map]
  · rw [Call.run, contains, htells.targets, List.contains_eq_mem]
  · simp [history, Call.registers, ht, he]
  · simp [after, Call.run_extend ht he]

end ExtensionRegistry

end ModelContracts
