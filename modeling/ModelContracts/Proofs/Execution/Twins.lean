import ModelContracts.Build.Compilation
import ModelContracts.Proofs.Execution.Renumbering

/-!
Executing the same source twice, step by step. Each statement that succeeds the first time succeeds
the second time, and leaves the same names with the same meanings, but for the numbers of the classes
that the source declares.
-/

namespace ModelContracts

namespace PlainStatement

/-- The modules that a statement touches. -/
def imports : PlainStatement → List String
  | .importNames module _ => [module]
  | .importModule module _ => [module, Text.firstPiece '.' module]
  | _ => []

end PlainStatement

namespace Statement

def imports : Statement → List String
  | .plain _ s => s.imports
  | .function _ body => body.flatMap fun l => l.2.imports
  | .classDef .. => []

end Statement

namespace Renumbering

variable {ρ : Renumbering}

def attributes (ρ : Renumbering) (l : List (String × Entity)) : List (String × Entity) :=
  l.map fun a => (a.1, ρ.entity a.2)

theorem lookup_attributes (l : List (String × Entity)) (name : String) :
    (ρ.attributes l).lookup name = (l.lookup name).map ρ.entity := by
  induction l with
  | nil => rfl
  | cons a l ih =>
    obtain ⟨n, e⟩ := a
    rw [attributes] at ih ⊢
    rw [List.map_cons, lookup_cons_ite, lookup_cons_ite, ih]
    split_ifs <;> rfl

theorem setEntry_attributes (l : List (String × Entity)) (name : String) (e : Entity) :
    setEntry name (ρ.entity e) (ρ.attributes l) = ρ.attributes (setEntry name e l) := by
  induction l with
  | nil => rfl
  | cons a l ih =>
    obtain ⟨n, e'⟩ := a
    simp only [attributes, List.map_cons, setEntry] at ih ⊢
    split_ifs
    · rfl
    · rw [ih]
      rfl

theorem mem_setEntry {α β : Type} [DecidableEq α] {l : List (α × β)} {k : α} {v : β} {a : α × β}
    (h : a ∈ setEntry k v l) : a = (k, v) ∨ a ∈ l := by
  induction l with
  | nil => exact Or.inl (List.mem_singleton.1 h)
  | cons b l ih =>
    obtain ⟨k', v'⟩ := b
    rw [setEntry] at h
    split_ifs at h with hk
    · rcases List.mem_cons.1 h with rfl | h
      · exact Or.inl (by rw [hk])
      · exact Or.inr (List.mem_cons_of_mem _ h)
    · rcases List.mem_cons.1 h with rfl | h
      · exact Or.inr List.mem_cons_self
      · exact (ih h).imp id (List.mem_cons_of_mem _)

/-- The state of the first execution and that of the second. -/
structure Twins (ρ : Renumbering) (x x' : Execution) : Prop where
  name : x.name = ρ.module
  name' : x'.name = ρ.module
  number : x.number = ρ.first
  number' : x'.number = ρ.second
  attributes : x'.attributes = ρ.attributes x.attributes
  reaches : ∀ a ∈ x.attributes, ρ.Reaches a.2
  functions : x'.functions = x.functions
  bodies : ∀ f ∈ x.functions, ∀ l ∈ f.2, ∀ m ∈ l.2.imports, m ∉ ρ.others
  world : ρ.Mirror x.world x'.world

/-- A step that succeeds from the one state succeeds from the other, with states alike. -/
def Follows (ρ : Renumbering) (r r' : Execution.Step) : Prop :=
  ∀ y, r = .ok y → ∃ y', r' = .ok y' ∧ ρ.Twins y y'

namespace Twins

open Execution

variable {x x' : Execution} {line : Nat}

theorem follows (h : ρ.Twins x x') : ρ.Follows (.ok x) (.ok x') := by
  intro y hy
  cases hy
  exact ⟨x', rfl, h⟩

theorem inWorld (h : ρ.Twins x x') {w w' : World} (hworld : ρ.Mirror w w') :
    ρ.Twins { x with world := w } { x' with world := w' } where
  name := h.name
  name' := h.name'
  number := h.number
  number' := h.number'
  attributes := h.attributes
  reaches := h.reaches
  functions := h.functions
  bodies := h.bodies
  world := hworld

theorem set (h : ρ.Twins x x') (name : String) {e : Entity} (he : ρ.Reaches e) :
    ρ.Twins (x.set name e) (x'.set name (ρ.entity e)) where
  name := h.name
  name' := h.name'
  number := h.number
  number' := h.number'
  attributes := by
    rw [Execution.set, Execution.set, h.attributes, setEntry_attributes]
  reaches a ha := by
    rcases mem_setEntry ha with rfl | ha
    · exact he
    · exact h.reaches a ha
  functions := h.functions
  bodies := h.bodies
  world := h.world

theorem lookup_agree (h : ρ.Twins x x') (name : String) :
    ρ.Agree (x.lookup? name) (x'.lookup? name) := by
  unfold Execution.lookup?
  rw [h.attributes, lookup_attributes]
  rcases hl : x.attributes.lookup name with _ | e
  · exact h.world.attribute_agree (e := .module "builtins") ρ.builtins name
  · exact .some (h.reaches _ (mem_of_lookup hl))

theorem walk_ok (h : ρ.Twins x x') {names : List String} {e found : Entity} (he : ρ.Reaches e)
    (hwalk : x.walk line e names = .ok found) :
    x'.walk line (ρ.entity e) names = .ok (ρ.entity found) ∧ ρ.Reaches found := by
  induction names generalizing e with
  | nil =>
    cases hwalk
    exact ⟨rfl, he⟩
  | cons name rest ih =>
    obtain ⟨hsame, hreaches⟩ := h.world.attribute_agree he name
    unfold walk at hwalk ⊢
    rw [hsame]
    split at hwalk
    next e' he' =>
      rw [he']
      exact ih (hreaches e' he') hwalk
    · cases hwalk

theorem resolve_ok (h : ρ.Twins x x') {name : String} {found : Entity}
    (hresolve : x.resolve line name = .ok found) :
    x'.resolve line name = .ok (ρ.entity found) ∧ ρ.Reaches found := by
  unfold Execution.resolve at hresolve ⊢
  split_ifs at hresolve ⊢
  · cases hresolve
    exact ⟨rfl, Mirror.outside_none⟩
  · split at hresolve
    · cases hresolve
    next first rest _ =>
      obtain ⟨hsame, hreaches⟩ := h.lookup_agree first
      rw [hsame]
      split at hresolve
      next e he =>
        rw [he]
        exact h.walk_ok (hreaches e he) hresolve
      · cases hresolve

/-! Plain statements. -/

theorem importName_follows (h : ρ.Twins x x') {module : String} (hm : module ∉ ρ.others)
    (name : String) : ρ.Follows (importName line module x name) (importName line module x' name) := by
  obtain ⟨hsame, hreaches⟩ := h.world.attribute_agree (e := .module module) hm name
  intro y hy
  unfold importName at hy ⊢
  split at hy
  next e he =>
    cases hy
    have hsame' : x'.world.attribute? (.module module) name = some (ρ.entity e) := by
      rw [show Entity.module module = ρ.entity (.module module) from rfl, hsame, he]
      rfl
    rw [hsame']
    exact ⟨_, rfl, h.set name (hreaches e he)⟩
  · cases hy

/-- What each step of a fold keeps alike, the whole fold keeps alike. -/
theorem foldlM_follows {α : Type} {f f' : Execution → α → Execution.Step} {l : List α}
    (hstep : ∀ a ∈ l, ∀ x x', ρ.Twins x x' → ρ.Follows (f x a) (f' x' a)) (h : ρ.Twins x x') :
    ρ.Follows (l.foldlM f x) (l.foldlM f' x') := by
  induction l generalizing x x' with
  | nil => exact h.follows
  | cons a l ih =>
    intro y hy
    rw [List.foldlM_cons] at hy ⊢
    obtain ⟨z, hz, hrest⟩ := except_bind_ok hy
    obtain ⟨z', hz', htwins⟩ := hstep a List.mem_cons_self x x' h z hz
    rw [hz']
    exact ih (fun b hb => hstep b (List.mem_cons_of_mem _ hb)) htwins y hrest

theorem runSimple_follows (h : ρ.Twins x x') {s : PlainStatement}
    (hs : ∀ m ∈ s.imports, m ∉ ρ.others) :
    ρ.Follows (runSimple line x s) (runSimple line x' s) := by
  cases s with
  | nothing | call => exact h.follows
  | setText name text => exact (h.set name (e := .value (.text text)) nofun).follows
  | setNumber name n => exact (h.set name (e := .value (.int n)) nofun).follows
  | importNames module names =>
    have hm : module ∉ ρ.others := hs module List.mem_cons_self
    intro y hy
    simp only [runSimple, importNames] at hy ⊢
    split at hy
    · cases hy
    next himport =>
      obtain ⟨found, hfound⟩ := h.world.import_ok hm himport
      rw [hfound]
      exact h.foldlM_follows (fun name _ _ _ htwins => htwins.importName_follows hm name) y hy
  | importModule module name =>
    have hm : module ∉ ρ.others := hs module List.mem_cons_self
    have htop : Text.firstPiece '.' module ∉ ρ.others := hs _ (by simp [PlainStatement.imports])
    intro y hy
    simp only [runSimple, importModule] at hy ⊢
    split at hy
    · cases hy
    next himport =>
      obtain ⟨found, hfound⟩ := h.world.import_ok hm himport
      cases hy
      rw [hfound]
      refine ⟨_, rfl, h.set name (e := .module _) ?_⟩
      show (if name = _ then name else module) ∉ ρ.others
      split_ifs with htop'
      · rwa [htop']
      · exact hm
  | fail kind text =>
    intro y hy
    simp only [runSimple, fail] at hy
    split at hy <;> cases hy
  | mention name =>
    intro y hy
    simp only [runSimple] at hy ⊢
    rcases hr : x.resolve line name with e | found
    · rw [hr] at hy
      cases hy
    · rw [hr] at hy
      cases hy
      rw [(h.resolve_ok hr).1]
      exact ⟨x', rfl, h⟩

theorem callFunction_follows (h : ρ.Twins x x') {body : List (Nat × PlainStatement)}
    (hbody : ∀ l ∈ body, ∀ m ∈ l.2.imports, m ∉ ρ.others) :
    ρ.Follows (callFunction body x) (callFunction body x') := by
  intro y hy
  unfold callFunction at hy ⊢
  rcases hr : body.foldlM (fun y (n, s) => runSimple n y s) x with e | z
  · rw [hr] at hy
    cases hy
  · rw [hr] at hy
    cases hy
    have hfollows : ρ.Follows (body.foldlM (fun y (n, s) => runSimple n y s) x)
        (body.foldlM (fun y (n, s) => runSimple n y s) x') :=
      h.foldlM_follows fun l hl _ _ htwins => htwins.runSimple_follows (hbody l hl)
    obtain ⟨z', hz', -⟩ := hfollows z hr
    rw [hz']
    exact ⟨x', rfl, h⟩

theorem runPlain_follows (h : ρ.Twins x x') {s : PlainStatement}
    (hs : ∀ m ∈ s.imports, m ∉ ρ.others) :
    ρ.Follows (runPlain line x s) (runPlain line x' s) := by
  cases s with
  | call name argument =>
    simp only [runPlain, h.functions]
    rcases hf : x.functions.lookup name with _ | body
    · intro y hy
      dsimp only at hy ⊢
      rcases hr : x.resolve line name with e | found
      · rw [hr] at hy
        cases hy
      · rw [hr] at hy
        rw [(h.resolve_ok hr).1]
        cases argument with
        | some n => cases hy
        | none =>
          cases hy
          exact ⟨x', rfl, h⟩
    · exact h.callFunction_follows (h.bodies _ (mem_of_lookup hf))
  | _ =>
    simp only [runPlain]
    exact h.runSimple_follows hs

/-! Classes. -/

theorem make_marker (c : ClassId) (shape : MarkerShape) (args : List Value) :
    Marker.make? (ρ.cls c) shape args = (Marker.make? c shape args).map ρ.marker := by
  rw [Marker.make?, Marker.make?, Option.map_map]
  rfl

theorem make_kind {c : ClassId} {shape : MarkerShape} {args : List Value} {m : Marker}
    (h : Marker.make? c shape args = some m) : m.kind = c := by
  obtain ⟨filled, -, rfl⟩ := Option.map_eq_some_iff.1 h
  rfl

theorem decoratorMarker_ok (h : ρ.Twins x x') {d : Decorator} {o : Option Marker}
    (ho : x.decoratorMarker d = .ok o) :
    x'.decoratorMarker d = .ok (o.map ρ.marker) ∧ ∀ m ∈ o, ρ.Known m.kind := by
  obtain ⟨e, he, hmake⟩ := except_bind_ok ho
  obtain ⟨he', hreaches⟩ := h.resolve_ok he
  unfold decoratorMarker
  rw [he']
  cases e with
  | cls c =>
    have hshape := h.world.shape_eq hreaches
    simp only [entity, bind, Except.bind, hshape] at hmake ⊢
    rcases hs : x.world.shape? c with _ | shape
    · rw [hs] at hmake
      cases hmake
      exact ⟨rfl, fun m hm => by cases hm⟩
    · rw [hs] at hmake
      cases hmake
      refine ⟨congrArg Except.ok (make_marker c shape _), fun m hm => ?_⟩
      rw [make_kind hm]
      exact hreaches
  | _ =>
    cases hmake
    exact ⟨rfl, fun m hm => by cases hm⟩

theorem decorateOuter_ok (h : ρ.Twins x x') {d : Decorator} {value : Defined}
    (hd : x.decorateOuter d = .ok value) : x'.decorateOuter d = .ok value := by
  obtain ⟨e, he, hcheck⟩ := except_bind_ok hd
  obtain ⟨he', hreaches⟩ := h.resolve_ok he
  unfold decorateOuter
  rw [he']
  cases e with
  | cls c =>
    have hproperty : ρ.cls c = ClassId.builtin "property" ↔ c = ClassId.builtin "property" :=
      cls_eq_old hreaches (old_of_zero rfl)
    have hrecord := h.world.record_eq hreaches
    simp only [entity, bind, Except.bind, hproperty, hrecord] at hcheck ⊢
    split_ifs at hcheck ⊢
    · exact hcheck
    · exact hcheck
  | _ => exact hcheck

theorem decorate_ok (h : ρ.Twins x x') {scope : List (String × Defined)} {d : Decorator}
    {value : Defined} (hd : x.decorate scope d = .ok value) : x'.decorate scope d = .ok value := by
  unfold decorate at hd ⊢
  split at hd
  · exact h.decorateOuter_ok hd
  · exact hd
  · exact hd

theorem mem_finalClasses {c : ClassId} (h : c ∈ World.finalClasses) : c.generation = 0 := by
  simp only [World.finalClasses, List.mem_cons, List.not_mem_nil, or_false] at h
  rcases h with rfl | rfl | rfl <;> rfl

theorem contains_finalClasses {c : ClassId} (hc : ρ.Known c) :
    World.finalClasses.contains (ρ.cls c) = World.finalClasses.contains c := by
  have hold : ∀ d ∈ World.finalClasses, ρ.Old d := fun d hd => old_of_zero (mem_finalClasses hd)
  have hmap : World.finalClasses.map ρ.cls = World.finalClasses :=
    (List.map_congr_left fun d hd => (hold d hd).cls_eq).trans (List.map_id _)
  have hcontains := contains_map (fun d hd => (hold d hd).known) hc
  rwa [hmap] at hcontains

theorem baseClass_ok (h : ρ.Twins x x') {base : Option String} {c : ClassId}
    (hc : x.baseClass line base = .ok c) : x'.baseClass line base = .ok (ρ.cls c) ∧ ρ.Known c := by
  have hobject : ρ.Old ClassId.object := old_of_zero rfl
  have hsame : (.ok ClassId.object : Except LoadFailure ClassId) = .ok (ρ.cls ClassId.object) := by
    rw [hobject.cls_eq]
  cases base with
  | none =>
    cases hc
    exact ⟨hsame, hobject.known⟩
  | some name =>
    obtain ⟨e, he, hbase⟩ := except_bind_ok hc
    obtain ⟨he', hreaches⟩ := h.resolve_ok he
    unfold baseClass
    dsimp only
    rw [he']
    cases e with
    | cls d =>
      simp only [entity, bind, Except.bind, contains_finalClasses hreaches] at hbase ⊢
      split_ifs at hbase ⊢
      cases hbase
      exact ⟨rfl, hreaches⟩
    | value v =>
      cases v <;> cases hbase <;> exact ⟨hsame, hobject.known⟩
    | _ =>
      cases hbase
      exact ⟨hsame, hobject.known⟩

theorem own_declared (h : ρ.Twins x x') (name : String) :
    ρ.Own ⟨x.name, name, x.number⟩ := ⟨h.name, h.number⟩

theorem cls_declared (h : ρ.Twins x x') (name : String) :
    ρ.cls ⟨x.name, name, x.number⟩ = ⟨x'.name, name, x'.number⟩ := by
  rw [(h.own_declared name).cls_eq, h.name', h.number', h.name]

theorem declareClass (h : ρ.Twins x x') (name : String) {base : ClassId} (hbase : ρ.Known base) :
    ρ.Twins (x.declareClass name base) (x'.declareClass name (ρ.cls base)) := by
  have hown := h.own_declared name
  have hcls := h.cls_declared name
  have hlineage := h.world.known_lineage hbase
  have hworld := h.world.declare
    (i := { id := ⟨x.name, name, x.number⟩
            lineage := ⟨x.name, name, x.number⟩ :: x.world.lineage base }) hown
    (fun d hd => by
      rcases List.mem_cons.1 hd with rfl | hd
      · exact Or.inr hown
      · exact hlineage d hd) rfl
  simp only [info, hcls, List.map_cons, ← h.world.lineage_eq hbase] at hworld
  have hset := (h.inWorld hworld).set name (e := .cls ⟨x.name, name, x.number⟩) (Or.inr hown)
  rwa [entity, hcls] at hset

theorem mapM_ok {α β γ : Type} {f : α → Except LoadFailure β} {f' : α → Except LoadFailure γ}
    {g : β → γ} {P : β → Prop} (hf : ∀ a b, f a = .ok b → f' a = .ok (g b) ∧ P b) {l : List α}
    {bs : List β} (h : l.mapM f = .ok bs) : l.mapM f' = .ok (bs.map g) ∧ ∀ b ∈ bs, P b := by
  induction l generalizing bs with
  | nil =>
    cases h
    exact ⟨rfl, nofun⟩
  | cons a l ih =>
    rw [List.mapM_cons] at h ⊢
    obtain ⟨b, hb, h₁⟩ := except_bind_ok h
    obtain ⟨rest, hrest, h₂⟩ := except_bind_ok h₁
    cases h₂
    obtain ⟨hfirst, hb'⟩ := hf a b hb
    obtain ⟨htail, hrest'⟩ := ih hrest
    rw [hfirst, htail]
    exact ⟨rfl, List.forall_mem_cons.2 ⟨hb', hrest'⟩⟩

theorem define_ok (h : ρ.Twins x x') {scope after : List (String × Defined)} {f : Definition}
    (hf : x.define scope f = .ok after) : x'.define scope f = .ok after := by
  obtain ⟨values, hvalues, hset⟩ := except_bind_ok hf
  obtain ⟨hvalues', -⟩ := mapM_ok (P := fun _ => True) (g := id)
    (fun d v hv => ⟨h.decorate_ok (d := d) hv, trivial⟩) hvalues
  rw [List.map_id] at hvalues'
  unfold define
  rw [hvalues']
  exact hset

theorem runBody_ok (h : ρ.Twins x x') {body : List Definition} {after : List (String × Defined)}
    (hbody : x.runBody body = .ok after) : x'.runBody body = .ok after := by
  unfold runBody at hbody ⊢
  generalize ([] : List (String × Defined)) = scope at hbody ⊢
  induction body generalizing scope with
  | nil => exact hbody
  | cons f body ih =>
    rw [List.foldlM_cons] at hbody ⊢
    obtain ⟨next, hnext, hrest⟩ := except_bind_ok hbody
    rw [h.define_ok hnext]
    exact ih next hrest

theorem marks {w w' : World} (h : ρ.Mirror w w') {c : ClassId} (hc : ρ.Known c)
    {ms : List Marker} (hms : ∀ m ∈ ms, ρ.Known m.kind) :
    ρ.Mirror (ms.foldl (fun w m => w.mark c m) w)
      ((ms.map ρ.marker).foldl (fun w m => w.mark (ρ.cls c) m) w') := by
  induction ms generalizing w w' with
  | nil => exact h
  | cons m ms ih =>
    obtain ⟨hm, hrest⟩ := List.forall_mem_cons.1 hms
    exact ih (h.mark hc hm) hrest

theorem runClass_follows (h : ρ.Twins x x') {decorators : List Decorator} {body : List Definition}
    {name : String} {base : Option String} :
    ρ.Follows (runClass decorators line name base body x)
      (runClass decorators line name base body x') := by
  intro y hy
  obtain ⟨markers, hmarkers, h₁⟩ := except_bind_ok hy
  obtain ⟨c, hc, h₂⟩ := except_bind_ok h₁
  obtain ⟨_, hbody, h₃⟩ := except_bind_ok h₂
  cases h₃
  obtain ⟨hc', hknown⟩ := h.baseClass_ok hc
  obtain ⟨hmarkers', hkinds⟩ := mapM_ok (fun d m hm => h.decoratorMarker_ok (d := d) hm) hmarkers
  have hbody' := h.runBody_ok hbody
  have hown := h.own_declared name
  have hdeclared := h.declareClass name hknown
  have hknowns : ∀ m ∈ (markers.filterMap id).reverse, ρ.Known m.kind := by
    intro m hm
    obtain ⟨o, ho, hsome⟩ := List.mem_filterMap.1 (List.mem_reverse.1 hm)
    exact hkinds o ho m hsome
  have hmarked := marks hdeclared.world (Or.inr hown) hknowns
  have hfilter : (markers.map (Option.map ρ.marker)).filterMap id =
      (markers.filterMap id).map ρ.marker := by
    rw [List.filterMap_map, List.map_filterMap]
    rfl
  refine ⟨_, ?_, hdeclared.inWorld hmarked⟩
  unfold runClass
  rw [hmarkers', hc', List.map_reverse, h.cls_declared name]
  simp only [bind, Except.bind, hbody', hfilter]
  rfl

theorem run_follows (h : ρ.Twins x x') {s : Statement} (hs : ∀ m ∈ s.imports, m ∉ ρ.others) :
    ρ.Follows (x.run s) (x'.run s) := by
  cases s with
  | plain line s => exact h.runPlain_follows hs
  | function name body =>
    have hset := h.set name (e := .other) trivial
    intro y hy
    cases hy
    refine ⟨_, rfl, { hset with functions := by rw [h.functions], bodies := fun f hf => ?_ }⟩
    rcases mem_setEntry hf with rfl | hf
    · exact fun l hl m hm => hs m (List.mem_flatMap.2 ⟨l, hl, hm⟩)
    · exact h.bodies f hf
  | classDef => exact h.runClass_follows

theorem runAll_follows (h : ρ.Twins x x') {statements : List Statement}
    (hs : ∀ s ∈ statements, ∀ m ∈ s.imports, m ∉ ρ.others) :
    ρ.Follows (x.runAll statements) (x'.runAll statements) :=
  h.foldlM_follows fun s hmem _ _ htwins => htwins.run_follows (hs s hmem)

end Twins

end Renumbering

end ModelContracts
