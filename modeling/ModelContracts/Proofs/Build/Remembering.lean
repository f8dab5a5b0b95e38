import ModelContracts.Proofs.Annotation.Converting
import ModelContracts.Proofs.Build.Respelling

/-!
Converters that are looked up while modules are built. What was found for a name, and that nothing was, is
remembered and told again. A build can register a module, or put another in its place, and so change where
a name leads; what is remembered of that name is told all the same. Where no build changes where a
remembered name leads, every answer is the one that a lookup without a memory would give, and every build
ends as it does when all that was remembered is forgotten before.
-/

namespace ModelContracts

open Building Converter

/-! A memory that is up to date. -/

namespace Converter

/-- What is remembered of names is what looking them up would tell. -/
def Faithful (w : World) (memory : ConverterMemory) : Prop := ∀ e ∈ memory, locate w e.1 = .ok e.2

instance (w : World) (memory : ConverterMemory) : Decidable (Faithful w memory) :=
  inferInstanceAs (Decidable (∀ e ∈ memory, locate w e.1 = .ok e.2))

variable {w : World} {memory : ConverterMemory} {name : String} {o : Option ClassId}

theorem faithful_nil (w : World) : Faithful w [] := by
  intro e he
  cases he

theorem Faithful.fresh (h : Faithful w memory) (name : String) : Fresh w memory name :=
  fun _ ho => h _ (mem_of_lookup ho)

theorem mem_remember {e : String × Option ClassId} (h : e ∈ remember memory name o) :
    e ∈ memory ∨ e = (name, o) := by
  rcases List.mem_append.1 h with h | h
  · refine Or.inl ?_
    split_ifs at h
    · exact (List.mem_filter.1 h).1
    · exact (List.mem_filter.1 (List.mem_of_mem_tail h)).1
  · exact Or.inr (List.mem_singleton.1 h)

theorem Faithful.remember (h : Faithful w memory) (ho : locate w name = .ok o) :
    Faithful w (remember memory name o) := by
  intro e he
  rcases mem_remember he with he | rfl
  · exact h e he
  · exact ho

/-- The class that a marker names, looked up without a memory. -/
def sought (w : World) (m : Marker) (name : String) : Except EmissionError (Option ClassId) :=
  match m.field "converter" with
  | .type (.cls c) => .ok (some c)
  | _ => (locate w name).mapError .converterImport

/-- What resolving a converter comes to without a memory. -/
def unremembered (w : World) (m : Marker) : Except EmissionError (Option ClassId) :=
  match m.converterName with
  | .error e => .error e
  | .ok name => if isDesignName name then .ok none else (sought w m name).map (·.filter isUsable)

variable {s : Emission}

theorem locateRemembered_known (h : remembered? s.memory name = some o) :
    ((locateRemembered w name).run s).1 = .ok o := by
  unfold locateRemembered
  rw [run_bind_of_ok (run_get s), h]
  rfl

theorem locateRemembered_unknown (h : remembered? s.memory name = none) :
    ((locateRemembered w name).run s).1 = (locate w name).mapError .converterImport := by
  unfold locateRemembered
  rw [run_bind_of_ok (run_get s), h]
  dsimp only
  cases locate w name <;> rfl

theorem named_searched {m : Marker} (h : ∀ c, m.field "converter" ≠ .type (.cls c)) (w : World)
    (name : String) : named m w name = locateRemembered w name := by
  unfold named
  split
  next c hc => exact (h c hc).elim
  next => rfl

theorem sought_searched {m : Marker} (h : ∀ c, m.field "converter" ≠ .type (.cls c)) (w : World)
    (name : String) : sought w m name = (locate w name).mapError .converterImport := by
  unfold sought
  split
  next c hc => exact (h c hc).elim
  next => rfl

/-- Resolving a converter goes by what the memory tells of its name. -/
theorem resolve_eq {v : World} {m : Marker}
    (h : ∀ name, m.converterName = .ok name →
      ((locateRemembered w name).run s).1 = (locate v name).mapError .converterImport) :
    ((resolve w m).run s).1 = unremembered v m := by
  unfold resolve unremembered
  cases hname : m.converterName with
  | error e => rfl
  | ok name =>
    have hnamed : ((named m w name).run s).1 = sought v m name := by
      by_cases hheld : ∃ c, m.field "converter" = .type (.cls c)
      · obtain ⟨c, hc⟩ := hheld
        unfold named sought
        rw [hc]
        rfl
      · have hsearched : ∀ c, m.field "converter" ≠ .type (.cls c) := fun c hc => hheld ⟨c, hc⟩
        rw [named_searched hsearched, sought_searched hsearched]
        exact h name hname
    dsimp only
    split_ifs
    · rfl
    · rw [← hnamed, run_bind]
      rcases (named m w name).run s with ⟨e | o, t⟩ <;> rfl

theorem resolve_faithful (h : Faithful w s.memory) (m : Marker) :
    ((resolve w m).run s).1 = unremembered w m := by
  refine resolve_eq fun name _ => ?_
  cases hremembered : remembered? s.memory name with
  | none => exact locateRemembered_unknown hremembered
  | some o => rw [locateRemembered_known hremembered, h.fresh name o hremembered, Except.mapError]

/-- What is told is what a lookup would tell now, or told when it was remembered. -/
theorem resolve_remembered (w : World) (s : Emission) (m : Marker) :
    ((resolve w m).run s).1 = unremembered w m ∨ ∃ e ∈ s.memory, ∀ v, locate v e.1 = .ok e.2 →
      ((resolve w m).run s).1 = unremembered v m := by
  cases hname : m.converterName with
  | error e =>
    refine Or.inl (resolve_eq fun name h => ?_)
    rw [hname] at h
    cases h
  | ok name =>
    have honly {v : World} {other : String} (h : m.converterName = .ok other)
        (hlocated : ((locateRemembered w name).run s).1 = (locate v name).mapError .converterImport) :
        ((locateRemembered w other).run s).1 = (locate v other).mapError .converterImport := by
      rw [hname] at h
      cases h
      exact hlocated
    cases hremembered : remembered? s.memory name with
    | none => exact Or.inl (resolve_eq fun other h => honly h (locateRemembered_unknown hremembered))
    | some o =>
      refine Or.inr ⟨(name, o), mem_of_lookup hremembered, fun v hv => resolve_eq fun other h => honly h ?_⟩
      rw [locateRemembered_known hremembered, hv, Except.mapError]

end Converter

/-- The same but for what is remembered, which is up to date on both sides. -/
structure Emission.Attuned (w : World) (e e' : Emission) : Prop where
  ledger : e'.ledger = e.ledger
  formed : e'.formed = e.formed
  log : e'.log = e.log
  first : Faithful w e.memory
  second : Faithful w e'.memory

theorem Emission.attuned_indistinct (w : World) : Emission.Indistinct w (Attuned w) where
  ledger h := h.ledger
  formed h := h.formed
  record _ h := ⟨rfl, h.formed, h.log, h.first, h.second⟩
  form _ h := ⟨h.ledger, rfl, h.log, h.first, h.second⟩
  note r h := ⟨h.ledger, h.formed, congrArg (· ++ [r]) h.log, h.first, h.second⟩
  locate name e e' h := by
    cases ho : locate w name with
    | error i =>
      rw [locateRemembered_refused (h.first.fresh name) ho,
        locateRemembered_refused (h.second.fresh name) ho]
      exact ⟨rfl, h⟩
    | ok o =>
      rw [locateRemembered_run (h.first.fresh name) ho, locateRemembered_run (h.second.fresh name) ho]
      exact ⟨rfl, h.ledger, h.formed, h.log, h.first.remember ho, h.second.remember ho⟩

/-- All that is remembered was remembered at first, or is what looking up tells. -/
def Emission.Learned (w : World) (memory : ConverterMemory) (e e' : Emission) : Prop :=
  e' = e ∧ ∀ x ∈ e.memory, x ∈ memory ∨ locate w x.1 = .ok x.2

theorem Emission.learned_indistinct (w : World) (memory : ConverterMemory) :
    Emission.Indistinct w (Learned w memory) where
  ledger h := by rw [h.1]
  formed h := by rw [h.1]
  record l h := ⟨by rw [h.1], h.2⟩
  form m h := ⟨by rw [h.1], h.2⟩
  note r h := ⟨by rw [h.1], h.2⟩
  locate name e e' h := by
    obtain ⟨rfl, hlearned⟩ := h
    refine ⟨rfl, rfl, ?_⟩
    intro x hx
    unfold locateRemembered at hx
    rw [run_bind_of_ok (run_get _)] at hx
    cases hremembered : remembered? e'.memory name with
    | some o =>
      rw [hremembered] at hx
      rcases mem_remember hx with hx | rfl
      · exact hlearned x hx
      · exact hlearned _ (mem_of_lookup hremembered)
    | none =>
      rw [hremembered] at hx
      dsimp only at hx
      cases ho : locate w name with
      | error i =>
        rw [ho] at hx
        exact hlearned x hx
      | ok o =>
        rw [ho] at hx
        rcases mem_remember hx with hx | rfl
        · exact hlearned x hx
        · exact Or.inr ho

/-! Programs that do not look converters up. -/

/-- The session with another memory of converters. -/
def Session.recalling (s : Session) (memory : ConverterMemory) : Session := { s with converters := memory }

/-- The program neither goes by what is remembered nor changes it. -/
def Oblivious {α : Type} (m : Building α) : Prop :=
  ∀ s memory, m.run (s.recalling memory) = ((m.run s).1, (m.run s).2.recalling memory)

namespace Oblivious

variable {α β : Type} {m : Building α}

theorem kept (h : Oblivious m) (s : Session) : (m.run s).2.converters = s.converters := by
  have hself := congrArg (·.2.converters) (h s s.converters)
  exact hself

theorem pure (a : α) : Oblivious (pure a : Building α) := fun _ _ => rfl

theorem throw (e : BuildError) : Oblivious (throw e : Building α) := fun _ _ => rfl

theorem modify {f : Session → Session} (h : ∀ s memory, f (s.recalling memory) = (f s).recalling memory) :
    Oblivious (modify f : Building PUnit) := by
  intro s memory
  rw [run_modify, run_modify, h]

theorem bind {f : α → Building β} (hm : Oblivious m) (hf : ∀ a, Oblivious (f a)) :
    Oblivious (m >>= f) := by
  intro s memory
  rw [run_bind, run_bind, hm s memory]
  rcases m.run s with ⟨e | a, t⟩
  · rfl
  · exact hf a t memory

theorem get_bind {f : Session → Building β} (h : ∀ s memory, f (s.recalling memory) = f s)
    (hf : ∀ s, Oblivious (f s)) : Oblivious (get >>= f) := by
  intro s memory
  rw [run_bind_of_ok (run_get _), run_bind_of_ok (run_get _), h]
  exact hf s s memory

theorem tryCatch {f : BuildError → Building α} (hm : Oblivious m) (hf : ∀ e, Oblivious (f e)) :
    Oblivious (tryCatch m f) := by
  intro s memory
  rw [run_tryCatch, run_tryCatch, hm s memory]
  rcases m.run s with ⟨e | a, t⟩
  · exact hf e t memory
  · rfl

theorem map {f : α → β} (hm : Oblivious m) : Oblivious (f <$> m) := by
  intro s memory
  rw [run_map, run_map, hm s memory]

theorem filing {α : Type} (m : Filing α) : Oblivious (filing m) := fun _ _ => rfl

theorem log (r : LogRecord) : Oblivious (Building.log r) := fun _ _ => rfl

theorem setCache (f : ModuleCache → ModuleCache) : Oblivious (Building.setCache f) := fun _ _ => rfl

end Oblivious

namespace Compilation

variable {path : Path} {name : String}

theorem check_oblivious (source : String) (references : List String) (path : Path) :
    Oblivious (check source references path) := by
  refine Oblivious.get_bind (fun _ _ => rfl) fun s => ?_
  dsimp only
  split
  · exact .pure _
  · exact .throw _

theorem checkLoader_oblivious (source : String) (path : Path) : Oblivious (checkLoader source path) := by
  unfold checkLoader
  split
  · exact .pure _
  · exact .throw _
  · exact .throw _

theorem runSource_oblivious (source : String) (path : Path) (name origin : String) :
    Oblivious (runSource source path name origin) := by
  refine Oblivious.get_bind (fun _ _ => rfl) fun s => ?_
  split
  · exact (Oblivious.modify fun _ _ => rfl).bind fun _ => .throw _
  · exact (Oblivious.modify fun _ _ => rfl).bind fun _ => (Oblivious.log _).bind fun _ => .pure _

theorem execute_oblivious (source : String) (path : Path) (name : String) (fromFile : Bool) :
    Oblivious (execute source path name fromFile) := by
  unfold execute
  split
  · exact (checkLoader_oblivious source path).bind fun _ => runSource_oblivious source path name _
  · exact runSource_oblivious source path name _

theorem deleteIfThere_oblivious (path : Path) : Oblivious (deleteIfThere path) := by
  refine (Oblivious.filing _).tryCatch fun e => ?_
  split
  · exact .pure _
  · exact .throw _

theorem executeOrDelete_oblivious (source : String) (path : Path) (name : String) :
    Oblivious (executeOrDelete source path name) := by
  refine (execute_oblivious source path name true).tryCatch fun e => ?_
  split
  · exact (deleteIfThere_oblivious path).bind fun _ => .throw _
  · exact Oblivious.throw _

theorem install_oblivious (source : String) (path : Path) (name : String) :
    Oblivious (install source path name) :=
  (Oblivious.filing _).bind fun _ => (Oblivious.filing _).bind fun _ =>
    (Oblivious.log _).bind fun _ => executeOrDelete_oblivious source path name

theorem compile_oblivious (source : String) (references : List String) (path : Path) (name : String)
    (persist : Bool) : Oblivious (compile source references path name persist) := by
  refine Oblivious.bind (.modify fun _ _ => rfl) fun _ =>
    (check_oblivious source references path).bind fun _ => ?_
  split
  · exact install_oblivious source path name
  · exact execute_oblivious source path name false

theorem load_oblivious (path : Path) (name : String) : Oblivious (load path name) := by
  refine Oblivious.bind (.modify fun _ _ => rfl) fun _ => Oblivious.get_bind (fun _ _ => rfl) fun s => ?_
  split
  · exact .throw _
  · split
    · exact .throw _
    · exact (check_oblivious _ _ path).bind fun _ => execute_oblivious _ path name true

end Compilation

namespace Builder

open Compilation

variable (b : Builder) {path : Path} {name : String}

theorem lookFor_oblivious (path : Path) : Oblivious (lookFor path) := fun _ _ => rfl

theorem isMatch_oblivious (path : Path) : Oblivious (b.isMatch path) := fun _ _ => rfl

theorem deleteStale_oblivious (path : Path) : Oblivious (deleteStale path) := by
  intro s memory
  unfold deleteStale
  rw [run_bind_of_ok (run_get _), run_bind_of_ok (run_get _)]
  have hfiles : (s.recalling memory).files = s.files := rfl
  rw [hfiles]
  rcases (Filing.delete path).run s.files with ⟨e | _, tree⟩ <;> rfl

theorem cleanup_oblivious (path : Path) : Oblivious (b.cleanup path) := by
  unfold cleanup
  split
  · refine (lookFor_oblivious path).bind fun found => ?_
    split
    · refine (b.isMatch_oblivious path).bind fun fits => ?_
      split
      · exact deleteStale_oblivious path
      · exact .pure _
    · exact .pure _
  · exact .pure _

theorem survey_oblivious (path : Path) : Oblivious (b.survey path) :=
  (b.cleanup_oblivious path).bind fun _ => (lookFor_oblivious path).bind fun _ =>
    (b.isMatch_oblivious path).bind fun _ => (Oblivious.log _).bind fun _ => .pure _

theorem tryLoad_oblivious (path : Path) (name : String) : Oblivious (tryLoad path name) := by
  refine (load_oblivious path name).map.tryCatch fun e => ?_
  split
  · exact (Oblivious.log _).bind fun _ => .pure _
  · exact Oblivious.throw _

theorem loadArtifact_oblivious (path : Path) (name : String) : Oblivious (b.loadArtifact path name) := by
  refine Oblivious.get_bind (fun _ _ => rfl) fun s => ?_
  split
  · exact .pure _
  · refine (tryLoad_oblivious path name).bind fun o => ?_
    split
    · exact .pure _
    · exact (Oblivious.setCache _).bind fun _ => .pure _

theorem reuse_oblivious (path : Path) (name : String) : Oblivious (b.reuse path name) := by
  have hdisk (wanted : Bool) : Oblivious (b.fromDisk path name wanted) := by
    unfold fromDisk
    split
    · exact b.loadArtifact_oblivious path name
    · exact .pure _
  have hmemory : Oblivious (b.fromMemory name) := by
    unfold fromMemory
    split
    · exact Oblivious.get_bind (fun _ _ => rfl) fun s => .pure _
    · exact .pure _
  refine (b.survey_oblivious path).bind fun wanted => (hdisk wanted).bind fun o => ?_
  split
  · exact (Oblivious.log _).bind fun _ => .pure _
  · refine hmemory.bind fun o => ?_
    split
    · exact (Oblivious.log _).bind fun _ => .pure _
    · exact .pure _

theorem compileSource_oblivious (plan : Blueprint) (path : Path) (name : String) :
    Oblivious (b.compileSource plan path name) := by
  refine (compile_oblivious _ _ path name _).tryCatch fun e => ?_
  have hlogged : Oblivious (logFailure path e) := by
    unfold logFailure
    split
    · exact Oblivious.log _
    · exact .pure _
  exact hlogged.bind fun _ => .throw _

theorem record_oblivious (path : Path) (name : String) (m : Module) : Oblivious (b.record path name m) := by
  refine (Oblivious.setCache _).bind fun _ => ?_
  split
  · exact (Oblivious.setCache _).bind fun _ => (lookFor_oblivious path).bind fun _ => .pure _
  · exact .pure _

end Builder

/-! Programs that look converters up. -/

/-- The program ends in the same way with what is remembered and without it, as long as that is up to date;
and all that it comes to remember is what looking up tells at the start. -/
structure Impartial {α : Type} (m : Building α) (s : Session) : Prop where
  same : ∀ memory, Faithful s.world s.converters → Faithful s.world memory →
    (m.run (s.recalling memory)).1 = (m.run s).1 ∧
      ∃ memory', (m.run (s.recalling memory)).2 = (m.run s).2.recalling memory'
  learned : ∀ e ∈ (m.run s).2.converters, e ∈ s.converters ∨ locate s.world e.1 = .ok e.2

namespace Impartial

variable {α β : Type} {m : Building α} {s : Session}

/-- Nothing is looked up behind the program. -/
theorem bind {f : α → Building β} (hm : Impartial m s) (hf : ∀ a, Oblivious (f a)) :
    Impartial (m >>= f) s where
  same memory hs hmemory := by
    obtain ⟨hresult, memory', hends⟩ := hm.same memory hs hmemory
    rw [run_bind, run_bind]
    rcases hrun : m.run s with ⟨r, t⟩
    rcases hrun' : m.run (s.recalling memory) with ⟨r', t'⟩
    rw [hrun, hrun'] at hresult hends
    obtain rfl : r' = r := hresult
    obtain rfl : t' = t.recalling memory' := hends
    cases r' with
    | error e => exact ⟨rfl, memory', rfl⟩
    | ok a =>
      dsimp only
      rw [hf a t memory']
      exact ⟨rfl, memory', rfl⟩
  learned e he := by
    refine hm.learned e ?_
    rw [run_bind] at he
    rcases hrun : m.run s with ⟨_ | a, t⟩ <;> rw [hrun] at he
    · exact he
    · dsimp only at he
      rwa [(hf a).kept] at he

theorem map {f : α → β} (hm : Impartial m s) : Impartial (f <$> m) s where
  same memory hs hmemory := by
    obtain ⟨hresult, hends⟩ := hm.same memory hs hmemory
    rw [run_map, run_map, hresult]
    exact ⟨rfl, hends⟩
  learned e he := by
    rw [run_map] at he
    exact hm.learned e he

/-- Nothing is looked up before the program, and where it is, the world is the same still. -/
theorem after {f : α → Building β} (hm : Oblivious m)
    (hf : ∀ a t, m.run s = (.ok a, t) → Oblivious (f a) ∨ t.world = s.world ∧ Impartial (f a) t) :
    Impartial (m >>= f) s where
  same memory hs hmemory := by
    have hkept := hm.kept s
    rw [run_bind, run_bind, hm s memory]
    rcases hrun : m.run s with ⟨e | a, t⟩
    · exact ⟨rfl, memory, rfl⟩
    · rcases hf a t hrun with hf | ⟨hworld, hf⟩
      · dsimp only
        rw [hf t memory]
        exact ⟨rfl, memory, rfl⟩
      · rw [hrun] at hkept
        exact hf.same memory (by rwa [hworld, hkept]) (by rwa [hworld])
  learned e he := by
    have hkept := hm.kept s
    rw [run_bind] at he
    rcases hrun : m.run s with ⟨_ | a, t⟩ <;> rw [hrun] at he hkept
    · exact Or.inl (hkept ▸ he)
    · rcases hf a t hrun with hf | ⟨hworld, hf⟩
      · dsimp only at he
        rw [hf.kept] at he
        exact Or.inl (hkept ▸ he)
      · have hlearned := hf.learned e he
        rwa [hworld, hkept] at hlearned

end Impartial

namespace Builder

variable (b : Builder) (components : List Component) (path : Path) (s : Session)

theorem derive_impartial : Impartial (b.derive components path) s := by
  let synthesizer : Synthesizer :=
    { world := s.world, stem := Artifact.stem path, version := b.version
      namePrefix := b.settings.namePrefix, book := b.book }
  let draft (memory : ConverterMemory) : Draft :=
    { emission := { Emission.start s.world ClassId.modelNode with
      memory := memory, formed := s.formed, log := s.log } }
  have hrun (memory : ConverterMemory) : (b.derive components path).run (s.recalling memory) =
      (((synthesizer.synthesize components).run (draft memory)).1.mapError BuildError.emission,
        { s with
          converters := ((synthesizer.synthesize components).run (draft memory)).2.emission.memory
          formed := ((synthesizer.synthesize components).run (draft memory)).2.emission.formed
          log := ((synthesizer.synthesize components).run (draft memory)).2.emission.log }) := rfl
  have hown : (b.derive components path).run s = (b.derive components path).run
    (s.recalling s.converters) := rfl
  constructor
  · intro memory hs hmemory
    have hstart : Draft.Related (Emission.Attuned s.world) (draft s.converters) (draft memory) :=
      ⟨⟨rfl, rfl, rfl, hs, hmemory⟩, rfl, rfl, rfl⟩
    obtain ⟨hresult, hends⟩ := Synthesizer.synthesize_blind (s := synthesizer)
      (Emission.attuned_indistinct s.world) components _ _ hstart
    rw [hown, hrun memory, hrun s.converters, hresult, hends.emission.formed, hends.emission.log]
    exact ⟨rfl, _, rfl⟩
  · intro e he
    have hstart : Draft.Related (Emission.Learned s.world s.converters) (draft s.converters)
        (draft s.converters) := ⟨⟨rfl, fun _ hx => Or.inl hx⟩, rfl, rfl, rfl⟩
    obtain ⟨-, hends⟩ := Synthesizer.synthesize_blind (s := synthesizer)
      (Emission.learned_indistinct s.world s.converters) components _ _ hstart
    rw [hown, hrun s.converters] at he
    exact hends.emission.2 e he

theorem compile_impartial (name : String) : Impartial (b.compile components path name) s := by
  refine (b.derive_impartial components path s).bind fun plan => ?_
  exact (Oblivious.filing _).bind fun _ => (b.compileSource_oblivious plan path name).bind fun m =>
    (b.record_oblivious path name m).bind fun _ => (Oblivious.log _).bind fun _ => .pure _

theorem run_impartial : Impartial (b.run components path) s := by
  refine Impartial.after (b.reuse_oblivious path _) fun o t ht => ?_
  cases o with
  | some m => exact Or.inl (.pure _)
  | none => exact Or.inr ⟨(b.reuse_undone path ht (by simp)).world, b.compile_impartial components path t _⟩

theorem build_impartial : Impartial (b.build components path) s where
  same memory hs hmemory := by
    obtain ⟨hresult, memory', hends⟩ := (b.run_impartial components path (takeOff path s)).same memory hs hmemory
    have htaken : takeOff path (s.recalling memory) = (takeOff path s).recalling memory := rfl
    rw [build_eq, build_eq, htaken, hresult, hends]
    exact ⟨rfl, memory', rfl⟩
  learned e he := by
    rw [build_eq] at he
    exact (b.run_impartial components path (takeOff path s)).learned e he

end Builder

/-! Runs of lookups and builds. -/

/-- A converter that is looked up, or a build that is asked for. -/
inductive Step where
  | lookup (m : Marker)
  | build (c : Call)

inductive Answer where
  | converter (o : Option ClassId)
  | built (result : BuildResult Module)

/-- Looks a converter up, with what the session remembers. -/
def looking (m : Marker) : Building (Option ClassId) := fun s =>
  let (r, e) := (resolve s.world m).run { ledger := {}, memory := s.converters }
  (r.mapError BuildError.emission, { s with converters := e.memory })

theorem looking_run (m : Marker) (s : Session) : ((looking m).run s).1 =
    ((resolve s.world m).run { ledger := {}, memory := s.converters }).1.mapError BuildError.emission := rfl

theorem looking_impartial (m : Marker) (s : Session) : Impartial (looking m) s where
  same memory hs hmemory := by
    obtain ⟨hresult, -⟩ := resolve_blind (Emission.attuned_indistinct s.world) m
      { ledger := {}, memory := s.converters } { ledger := {}, memory := memory }
      ⟨rfl, rfl, rfl, hs, hmemory⟩
    exact ⟨congrArg (Except.mapError BuildError.emission) hresult, _, rfl⟩
  learned e he := by
    obtain ⟨-, hends⟩ := resolve_blind (Emission.learned_indistinct s.world s.converters) m
      { ledger := {}, memory := s.converters } { ledger := {}, memory := s.converters }
      ⟨rfl, fun _ hx => Or.inl hx⟩
    exact hends.2 e he

namespace Step

/-- Looks a converter up by its name. -/
def named (name : String) : Step := .lookup (.stock .typeConverter [.text name])

def run : Step → Building Answer
  | .lookup m => .converter <$> looking m
  | .build c => .built <$> c.run

/-- The answers of some steps, each of which starts from what is made ready of the session that the step
before it left. -/
def answers (ready : Session → Session) : List Step → Session → List (Except BuildError Answer)
  | [], _ => []
  | c :: cs, s => (c.run.run (ready s)).1 :: answers ready cs (c.run.run (ready s)).2

def ending (ready : Session → Session) : List Step → Session → Session
  | [], s => s
  | c :: cs, s => ending ready cs (c.run.run (ready s)).2

/-- No step changes where a name leads that is remembered. -/
def Steady : List Step → Session → Prop
  | [], _ => True
  | c :: cs, s => (∀ e ∈ (c.run.run s).2.converters, locate s.world e.1 = .ok e.2 →
      locate (c.run.run s).2.world e.1 = .ok e.2) ∧ Steady cs (c.run.run s).2

instance decidableSteady : (steps : List Step) → (s : Session) → Decidable (Steady steps s)
  | [], _ => .isTrue trivial
  | c :: cs, s =>
    @instDecidableAnd _ _ (inferInstanceAs (Decidable (∀ e ∈ (c.run.run s).2.converters, _ → _)))
      (decidableSteady cs (c.run.run s).2)

variable {s : Session} {steps : List Step}

theorem run_impartial (c : Step) (s : Session) : Impartial c.run s := by
  cases c with
  | lookup m => exact (looking_impartial m s).map
  | build c => exact (c.builder.build_impartial c.components c.path s).map

theorem ending_append (ready : Session → Session) (cs ds : List Step) (s : Session) :
    ending ready (cs ++ ds) s = ending ready ds (ending ready cs s) := by
  induction cs generalizing s with
  | nil => rfl
  | cons c cs ih => exact ih _

/-- Whatever is remembered was told by a lookup at the start of some step. -/
theorem ending_learned (hs : Faithful s.world s.converters) (steps : List Step) :
    ∀ e ∈ (ending id steps s).converters, ∃ earlier, earlier <+: steps ∧
      locate (ending id earlier s).world e.1 = .ok e.2 := by
  induction steps using List.reverseRecOn with
  | nil => exact fun e he => ⟨[], List.nil_prefix, hs e he⟩
  | append_singleton steps c ih =>
    intro e he
    rw [ending_append] at he
    rcases (c.run_impartial (ending id steps s)).learned e he with hold | hnew
    · obtain ⟨earlier, hprefix, hlocate⟩ := ih e hold
      exact ⟨earlier, hprefix.trans (List.prefix_append _ _), hlocate⟩
    · exact ⟨steps, List.prefix_append _ _, hnew⟩

theorem Steady.of_append {later : List Step} (h : Steady (steps ++ later) s) : Steady steps s := by
  induction steps generalizing s with
  | nil => trivial
  | cons c steps ih => exact ⟨h.1, ih h.2⟩

/-- A step that does not change where remembered names lead leaves the memory up to date. -/
theorem faithful_step {c : Step} (hs : Faithful s.world s.converters)
    (hc : ∀ e ∈ (c.run.run s).2.converters, locate s.world e.1 = .ok e.2 →
      locate (c.run.run s).2.world e.1 = .ok e.2) :
    Faithful (c.run.run s).2.world (c.run.run s).2.converters := by
  intro e he
  rcases (c.run_impartial s).learned e he with hold | hnew
  · exact hc e he (hs e hold)
  · exact hc e he hnew

theorem faithful_ending (hs : Faithful s.world s.converters) (h : Steady steps s) :
    Faithful (ending id steps s).world (ending id steps s).converters := by
  induction steps generalizing s with
  | nil => exact hs
  | cons c steps ih => exact ih (faithful_step hs h.1) h.2

/-- A steady run, and one that starts from another memory and forgets before each step. -/
theorem answers_forgetting (hs : Faithful s.world s.converters) (h : Steady steps s)
    (memory : ConverterMemory) :
    answers (·.recalling []) steps (s.recalling memory) = answers id steps s ∧
      ∃ memory', ending (·.recalling []) steps (s.recalling memory) =
        (ending id steps s).recalling memory' := by
  induction steps generalizing s memory with
  | nil => exact ⟨rfl, memory, rfl⟩
  | cons c steps ih =>
    obtain ⟨hresult, memory', hends⟩ := (c.run_impartial s).same [] hs (faithful_nil _)
    obtain ⟨hanswers, hending⟩ := ih (faithful_step hs h.1) h.2 memory'
    have hforgotten : (s.recalling memory).recalling [] = s.recalling [] := rfl
    rw [answers, answers, ending, ending, hforgotten, hends, hresult, hanswers]
    exact ⟨rfl, hending⟩

/-- What the memory of converters does to runs of lookups and builds. Each lookup is answered as it would be
without the memory at that moment or at the start of some step before. Where no step changes where a
remembered name leads, each is answered as it would be at that moment, all answers are those of the run
that forgets before each step, and both runs end in the same session but for what is remembered. -/
theorem memory_unseen (hs : Faithful s.world s.converters) (steps : List Step) :
    (∀ before m after, steps = before ++ .lookup m :: after → ∃ earlier, earlier <+: before ∧
      ((looking m).run (ending id before s)).1 =
        (unremembered (ending id earlier s).world m).mapError .emission) ∧
    (Steady steps s →
      (∀ before m after, steps = before ++ .lookup m :: after →
        ((looking m).run (ending id before s)).1 =
          (unremembered (ending id before s).world m).mapError .emission) ∧
      answers (·.recalling []) steps s = answers id steps s ∧
      ∃ memory, ending (·.recalling []) steps s = (ending id steps s).recalling memory) := by
  refine ⟨fun before m after _ => ?_, fun hsteady => ⟨fun before m after hsteps => ?_, ?_⟩⟩
  · rw [looking_run]
    rcases resolve_remembered (ending id before s).world
      { ledger := {}, memory := (ending id before s).converters } m with hnow | ⟨e, he, hthen⟩
    · rw [hnow]
      exact ⟨before, List.prefix_refl _, rfl⟩
    · obtain ⟨earlier, hprefix, hlocate⟩ := ending_learned hs before e he
      rw [hthen _ hlocate]
      exact ⟨earlier, hprefix, rfl⟩
  · rw [hsteps] at hsteady
    rw [looking_run, resolve_faithful (faithful_ending hs hsteady.of_append)]
  · exact answers_forgetting hs hsteady s.converters

end Step

namespace Sparse

def making : Step := .build ⟨builder, [], place⟩

/-- A converter that is nowhere, before and behind a build. -/
def absent : List Step := [.named "app.B", making, .named "app.B"]

theorem absent_unseen : Converter.Faithful session.world session.converters ∧
    Step.Steady absent session ∧
    Step.answers (·.recalling []) absent session = Step.answers id absent session ∧
    ∃ memory, Step.ending (·.recalling []) absent session =
      (Step.ending id absent session).recalling memory := by
  have hfaithful : Converter.Faithful session.world session.converters := by
    decide +kernel
  have hsteady : Step.Steady absent session := by
    decide +kernel
  exact ⟨hfaithful, hsteady, ((Step.memory_unseen hfaithful absent).2 hsteady).2⟩

def generated : Marker := .stock .typeConverter [.text "modelgen_generated_App.ModelNode"]

/-- The converter that a build brings is not told when it was looked up before. -/
theorem generated_stale : Converter.Faithful session.world session.converters ∧
    ((looking generated).run (Step.ending id [.lookup generated, making] session)).1.toOption =
      some none ∧
    (Converter.unremembered (Step.ending id [.lookup generated, making] session).world
      generated).toOption = some (some ClassId.modelNode) := by
  decide +kernel

end Sparse

end ModelContracts
