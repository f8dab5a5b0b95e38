import Mathlib.Tactic.ByContra
import ModelContracts.Proofs.Build.Coherence

/-!
What becomes of the file at the path of a build. A build that keeps no files deletes a stale artifact, if
that is wanted, and does not touch the file otherwise. After a deletion nothing that the cache has for the
path tells of the artifact.
-/

namespace ModelContracts

open FileTree Building Session

namespace Filing

variable {p : Path} {t t' : FileTree} {data : List UInt8}

theorem delete_there (hread : t.read? p = .ok data) (hlocked : p ∉ t.locked) :
    (delete p).run t = (.ok ⟨⟩, t.removeFile (t.resolve p)) := by
  obtain ⟨l, hl, hfolder, hfile⟩ := read?_ok hread
  rw [resolve_of_locate hl]
  unfold delete
  rw [run_bind_of_ok (run_get t)]
  simp [hlocked, hfolder, run_bind, locate_run hl, run_get, hfile, run_set]

/-- Only a file that is there and is not locked can be deleted. -/
theorem deleted_there (h : (delete p).run t = (.ok ⟨⟩, t')) :
    p ∉ t.locked ∧ ∃ data, t.read? p = .ok data := by
  unfold delete at h
  rw [run_bind_of_ok (run_get t)] at h
  dsimp only at h
  split_ifs at h with hlocked
  · cases h
  · obtain ⟨l, t₁, hl, hr⟩ := run_bind_ok h
    obtain ⟨hlocate, rfl⟩ := locate_ok hl
    rw [run_bind_of_ok (run_get t₁)] at hr
    split_ifs at hr with hfolder _ hnone <;> cases hr
    obtain ⟨data, hdata⟩ : ∃ data, t₁.file? l = some data := by
      simpa [Option.isNone_iff_eq_none, Option.ne_none_iff_exists'] using hnone
    refine ⟨by simpa using hlocked, data, ?_⟩
    unfold read?
    simp only [hlocate, hfolder, Bool.false_eq_true, if_false, hdata]

end Filing

namespace Session

/-- The files are as before; folders may have been made, and the cache may have changed. -/
def Unfiled (s s' : Session) : Prop := SameFiles s.files s'.files

instance : IsPreorder Session Unfiled where
  refl s := refl_of SameFiles s.files
  trans _ _ _ h h' := trans_of SameFiles h h'

/-- Neither files nor what the cache has for paths are changed. -/
structure Quiet (s s' : Session) : Prop where
  files : Unfiled s s'
  loaded : s'.cache.loaded = s.cache.loaded
  presence : s'.cache.presence = s.cache.presence

instance : IsPreorder Session Quiet where
  refl s := ⟨refl_of Unfiled s, rfl, rfl⟩
  trans _ _ _ h h' :=
    ⟨trans_of Unfiled h.files h'.files, h'.loaded.trans h.loaded, h'.presence.trans h.presence⟩

/-- Neither files and folders nor the cache are changed. -/
structure Calm (s s' : Session) : Prop where
  files : s'.files = s.files
  cache : s'.cache = s.cache

instance : IsPreorder Session Calm where
  refl _ := ⟨rfl, rfl⟩
  trans _ _ _ h h' := ⟨h'.files.trans h.files, h'.cache.trans h.cache⟩

theorem unfiled_of_files {s s' : Session} (h : s'.files = s.files) : Unfiled s s' := by
  rw [Unfiled, h]
  exact refl_of SameFiles s.files

theorem Calm.quiet {s s' : Session} (h : Calm s s') : Quiet s s' where
  files := unfiled_of_files h.files
  loaded := by rw [h.cache]
  presence := by rw [h.cache]

theorem calm_quiet {α : Type} {m : Building α} (h : Keeps Calm m) : Keeps Quiet m :=
  h.imp fun _ _ => Calm.quiet

theorem quiet_unfiled {α : Type} {m : Building α} (h : Keeps Quiet m) : Keeps Unfiled m :=
  h.imp fun _ _ => Quiet.files

theorem log_calm (r : LogRecord) : Keeps Calm (Building.log r) := .modify fun _ => ⟨rfl, rfl⟩

theorem log_quiet (r : LogRecord) : Keeps Quiet (Building.log r) := calm_quiet (log_calm r)

theorem filing_quiet {α : Type} {m : Filing α} (h : Keeps SameFiles m) : Keeps Quiet (filing m) :=
  fun s => ⟨h s.files, rfl, rfl⟩

end Session

/-! Compilations that keep no files, and loading. -/

namespace Compilation

variable {path : Path} {name : String}

theorem checkLoader_calm (source : String) : Keeps Calm (checkLoader source path) := by
  unfold checkLoader
  split
  · exact .pure _
  · exact .throw _
  · exact .throw _

theorem runSource_calm (source origin : String) : Keeps Calm (runSource source path name origin) := by
  intro s
  rcases h : (runSource source path name origin).run s with ⟨e | m, s'⟩
  · obtain ⟨rfl, -⟩ := runSource_error h
    exact ⟨rfl, rfl⟩
  · obtain ⟨w, log, -, rfl⟩ := runSource_ok h
    exact ⟨rfl, rfl⟩

theorem execute_calm (source : String) (fromFile : Bool) :
    Keeps Calm (execute source path name fromFile) := by
  unfold execute
  split
  · exact (checkLoader_calm source).bind fun _ => runSource_calm source _
  · exact runSource_calm source _

theorem check_calm (source : String) (references : List String) :
    Keeps Calm (check source references path) := by
  intro s
  rw [check_keeps references path s]
  exact refl_of Calm s

theorem compile_calm (source : String) (references : List String) :
    Keeps Calm (compile source references path name false) :=
  (Keeps.modify fun _ => ⟨rfl, rfl⟩).bind fun _ =>
    (check_calm source references).bind fun _ => execute_calm source false

theorem load_calm : Keeps Calm (load path name) := by
  refine (Keeps.modify fun _ => ⟨rfl, rfl⟩).bind fun _ => Keeps.get.bind fun s => ?_
  split
  · exact .throw _
  · split
    · exact .throw _
    · exact (check_calm _ _).bind fun _ => execute_calm _ true

end Compilation

namespace Builder

variable (b : Builder) {path : Path} {name : String} {s s' : Session}

theorem derive_calm (components : List Component) : Keeps Calm (b.derive components path) :=
  Keeps.get.bind fun _ _ => ⟨rfl, rfl⟩

theorem compileSource_quiet (plan : Blueprint) (hruntime : b.settings.runtimeMode = false) :
    Keeps Quiet (b.compileSource plan path name) := by
  unfold compileSource
  rw [hruntime]
  refine (calm_quiet (Compilation.compile_calm _ _)).tryCatch fun e => ?_
  refine Keeps.bind ?_ fun _ => .throw _
  unfold logFailure
  split
  · exact log_quiet _
  · exact .pure _

theorem record_quiet (m : Module) (hruntime : b.settings.runtimeMode = false) :
    Keeps Quiet (b.record path name m) := by
  unfold record
  rw [hruntime]
  exact (Keeps.modify fun s => ⟨refl_of Unfiled s, rfl, rfl⟩).bind fun _ => .pure _

theorem compile_quiet (components : List Component) (hruntime : b.settings.runtimeMode = false) :
    Keeps Quiet (b.compile components path name) :=
  (calm_quiet (b.derive_calm components)).bind fun plan =>
    (filing_quiet (Filing.makeFolders_keeps _)).bind fun _ =>
      (b.compileSource_quiet plan hruntime).bind fun m =>
        (b.record_quiet m hruntime).bind fun _ => (log_quiet _).bind fun _ => .pure _

theorem fromMemory_calm : Keeps Calm (b.fromMemory name) := by
  unfold fromMemory
  split
  · exact Keeps.get.bind fun _ => .pure _
  · exact .pure _

theorem tryLoad_calm : Keeps Calm (tryLoad path name) := by
  refine (Compilation.load_calm).map.tryCatch fun e => ?_
  split
  · exact (log_calm _).bind fun _ => .pure _
  · exact .throw _

theorem fromDisk_files (wanted : Bool) {r : Except BuildError (Option Module)}
    (h : (b.fromDisk path name wanted).run s = (r, s')) : s'.files = s.files := by
  unfold fromDisk at h
  split at h
  · unfold loadArtifact at h
    rw [run_bind_of_ok (run_get s)] at h
    split at h
    · cases h
      rfl
    · rcases hload : (tryLoad path name).run s with ⟨e | o, t⟩
      · rw [run_bind_of_error hload] at h
        cases h
        exact (tryLoad_calm.of_run hload).files
      · rw [run_bind_of_ok hload] at h
        cases o <;> cases h <;> exact (tryLoad_calm.of_run hload).files
  · cases h
    rfl

theorem fromDisk_unfiled (wanted : Bool) : Keeps Unfiled (b.fromDisk path name wanted) :=
  fun s => unfiled_of_files (b.fromDisk_files wanted (s := s) rfl)

theorem fromDisk_quiet : Keeps Quiet (b.fromDisk path name false) := by
  unfold fromDisk
  rw [Bool.and_false]
  exact .pure _

/-! Cleaning up. -/

/-- The artifact at a path is there, can be deleted and has to go: it does not show the version, or is not
to be trusted in any case. -/
structure Stale (path : Path) (s : Session) : Prop where
  enabled : b.settings.cleanupEnabled = true
  unlocked : path ∉ s.files.locked
  there : ∃ data, s.files.read? path = .ok data
  outdated : Stamp.ofFile? s.files path ≠ some b.version ∨ b.settings.devMachine = true

variable {b}

theorem Stale.file (h : b.Stale path s) : ∃ data, s.files.file? (s.files.resolve path) = some data := by
  obtain ⟨data, hread⟩ := h.there
  exact ⟨data, file?_of_read? hread⟩

theorem deleteStale_deletes (h : b.Stale path s) : ∃ log, (deleteStale path).run s = (.ok ⟨⟩, { s with
    files := s.files.removeFile (s.files.resolve path), cache := s.cache.forget path, log := log }) := by
  obtain ⟨data, hread⟩ := h.there
  unfold deleteStale
  rw [run_bind_of_ok (run_get s), Filing.delete_there hread h.unlocked]
  exact ⟨_, rfl⟩

theorem deleteStale_fails (h : path ∉ s.files.locked → ∀ data, s.files.read? path ≠ .ok data) :
    ∃ log, (deleteStale path).run s = (.ok ⟨⟩, { s with log := log }) := by
  unfold deleteStale
  rw [run_bind_of_ok (run_get s)]
  rcases hdelete : (Filing.delete path).run s.files with ⟨e | _, t⟩
  · obtain rfl := Filing.delete_unchanged hdelete
    exact ⟨_, rfl⟩
  · obtain ⟨hlocked, data, hread⟩ := Filing.deleted_there hdelete
    exact (h hlocked data hread).elim

theorem cleanup_deletes (h : b.Stale path s) : ∃ t, (b.cleanup path).run s = (.ok ⟨⟩, t) ∧
    t.files = s.files.removeFile (s.files.resolve path) ∧ t.cache.loaded? path = none := by
  obtain ⟨data, hread⟩ := h.there
  let seen : Session := { s with cache := (s.cache.lookFor s.files path).2 }
  have hfound : (lookFor path).run s = (.ok true, seen) := by
    rw [← isFile_of_read? hread]
    rfl
  have hseen : b.Stale path seen := { h with }
  obtain ⟨log, hdelete⟩ := deleteStale_deletes hseen
  have hwanted : (!Stamp.isMatch seen.files path b.version || b.settings.devMachine) = true := by
    rcases h.outdated with hstamp | hdev
    · rw [Stamp.isMatch, decide_eq_false hstamp]
      rfl
    · rw [hdev, Bool.or_true]
  refine ⟨{ seen with
      files := s.files.removeFile (s.files.resolve path), cache := seen.cache.forget path, log := log },
    ?_, rfl, (BuildCache.loaded?_forget seen.cache path path).trans (if_pos rfl)⟩
  unfold cleanup
  rw [if_pos h.enabled, run_bind_of_ok hfound, if_pos rfl]
  unfold isMatch
  simp only [bind_assoc, pure_bind]
  rw [run_bind_of_ok (run_get seen), if_pos hwanted, hdelete]

theorem cleanup_fails (h : ¬ b.Stale path s) :
    ∃ t, (b.cleanup path).run s = (.ok ⟨⟩, t) ∧ t.files = s.files := by
  unfold cleanup
  split_ifs with henabled
  · let seen : Session := { s with cache := (s.cache.lookFor s.files path).2 }
    have hfound : (lookFor path).run s = (.ok (s.files.isFile path), seen) := rfl
    rw [run_bind_of_ok hfound]
    split_ifs with hfile
    · unfold isMatch
      simp only [bind_assoc, pure_bind]
      rw [run_bind_of_ok (run_get seen)]
      split_ifs with hwanted
      · have hoff : path ∉ seen.files.locked → ∀ data, seen.files.read? path ≠ .ok data := by
          intro hlocked data hread
          refine h ⟨henabled, hlocked, ⟨data, hread⟩, ?_⟩
          rcases Bool.or_eq_true_iff.1 hwanted with hstamp | hdev
          · exact Or.inl (by simpa [Stamp.isMatch] using hstamp)
          · exact Or.inr hdev
        obtain ⟨log, hdelete⟩ := deleteStale_fails hoff
        exact ⟨_, hdelete, rfl⟩
      · exact ⟨_, rfl, rfl⟩
    · exact ⟨_, rfl, rfl⟩
  · exact ⟨_, rfl, rfl⟩

theorem survey_of_cleanup {t : Session} (h : (b.cleanup path).run s = (.ok ⟨⟩, t)) :
    ∃ wanted log, (b.survey path).run s =
      (.ok wanted, { t with cache := (t.cache.lookFor t.files path).2, log := log }) ∧
        (wanted = true → t.files.isFile path = true) := by
  refine ⟨_, _, run_bind_of_ok h, fun hwanted => ?_⟩
  obtain ⟨-, hfits⟩ := Bool.and_eq_true_iff.1 hwanted
  exact (Bool.and_eq_true_iff.1 hfits).1

variable (b) in
/-- What a build does when it is known whether an artifact is wanted. -/
def proceed (components : List Component) (path : Path) (wanted : Bool) :
    Building (BuildResult Module) := do
  match ← b.fromDisk path (Artifact.moduleName path) wanted with
  | some m =>
    log (reused path "disk")
    return BuildResult.fromCache m path
  | none => match ← b.fromMemory (Artifact.moduleName path) with
    | some m =>
      log (reused path "memory")
      return BuildResult.fromCache m path
    | none => b.compile components path (Artifact.moduleName path)

theorem run_after {wanted : Bool} {t : Session} (h : (b.survey path).run s = (.ok wanted, t))
    (components : List Component) :
    (b.run components path).run s = (b.proceed components path wanted).run t := by
  unfold run reuse proceed
  rw [run_bind, run_bind_of_ok h, run_bind, run_bind]
  rcases (b.fromDisk path (Artifact.moduleName path) wanted).run t with ⟨e | o, u⟩
  · rfl
  · cases o with
    | some m => rfl
    | none =>
      dsimp only
      rw [run_bind, run_bind]
      rcases (b.fromMemory (Artifact.moduleName path)).run u with ⟨e | o, v⟩
      · rfl
      · cases o <;> rfl

theorem proceed_keeps {R : Session → Session → Prop} [IsPreorder Session R] {components : List Component}
    {wanted : Bool} (hdisk : Keeps R (b.fromDisk path (Artifact.moduleName path) wanted))
    (hlog : ∀ r, Keeps R (Building.log r)) (hmemory : Keeps R (b.fromMemory (Artifact.moduleName path)))
    (hcompile : Keeps R (b.compile components path (Artifact.moduleName path))) :
    Keeps R (b.proceed components path wanted) := by
  refine hdisk.bind fun o => ?_
  split
  · exact (hlog _).bind fun _ => .pure _
  · refine hmemory.bind fun o => ?_
    split
    · exact (hlog _).bind fun _ => .pure _
    · exact hcompile

/-- A build that keeps no files does with the file at its path what the cleanup does with it. -/
theorem build_cleans {components : List Component} {t : Session} {r : Except BuildError (BuildResult Module)}
    (hruntime : b.settings.runtimeMode = false)
    (hcleanup : (b.cleanup path).run (takeOff path s) = (.ok ⟨⟩, t))
    (h : (b.build components path).run s = (r, s')) :
    Unfiled t s' ∧ (t.files.isFile path = false →
      s'.cache.loaded = t.cache.loaded ∧ s'.cache.known? path = some false) := by
  obtain ⟨wanted, log, hsurvey, hfile⟩ := survey_of_cleanup hcleanup
  have hcompile : Keeps Quiet (b.compile components path (Artifact.moduleName path)) :=
    b.compile_quiet components hruntime
  obtain ⟨u, hrun, rfl⟩ := b.run_of_build path h
  rw [run_after hsurvey] at hrun
  have hunfiled : Unfiled t u := by
    have hproceed : Keeps Unfiled (b.proceed components path wanted) :=
      proceed_keeps (b.fromDisk_unfiled wanted) (fun r => quiet_unfiled (log_quiet r))
        (quiet_unfiled (calm_quiet b.fromMemory_calm)) (quiet_unfiled hcompile)
    have hrest := hproceed.of_run hrun
    exact hrest
  refine ⟨hunfiled, fun hgone => ?_⟩
  obtain rfl : wanted = false := by
    cases wanted with
    | false => rfl
    | true => exact (hfile rfl).symm.trans hgone
  have hproceed : Keeps Quiet (b.proceed components path false) :=
    proceed_keeps b.fromDisk_quiet log_quiet (calm_quiet b.fromMemory_calm) hcompile
  have hquiet := hproceed.of_run hrun
  refine ⟨hquiet.loaded, ?_⟩
  have hknown := BuildCache.known?_lookFor t.cache t.files path
  rw [hgone] at hknown
  rw [BuildCache.known?, ← hknown, BuildCache.known?]
  exact congrArg (List.lookup path) hquiet.presence

/-- A build changes no file but the one at its path. One that keeps no files deletes that one just when it
is stale, after which the cache has no module for the path and no file there, and leaves it alone
otherwise. -/
theorem build_effects {components : List Component} {r : Except BuildError (BuildResult Module)}
    (h : (b.build components path).run s = (r, s')) :
    (∀ l, l ≠ s.files.resolve path → s'.files.file? l = s.files.file? l) ∧
      (b.settings.runtimeMode = false →
        (b.Stale path s ↔ (∃ data, s.files.file? (s.files.resolve path) = some data) ∧
          s'.files.file? (s.files.resolve path) = none) ∧
        (b.Stale path s → s'.cache.loaded? path = none ∧ s'.cache.known? path = some false) ∧
        (¬ b.Stale path s →
          s'.files.file? (s.files.resolve path) = s.files.file? (s.files.resolve path))) := by
  refine ⟨((b.build_frame components path).of_run h).files, fun hruntime => ?_⟩
  have hdeleted : b.Stale path s → s'.files.file? (s.files.resolve path) = none ∧
      s'.cache.loaded? path = none ∧ s'.cache.known? path = some false := by
    intro hstale
    obtain ⟨t, hcleanup, hfiles, hentry⟩ := cleanup_deletes (s := takeOff path s) { hstale with }
    obtain ⟨hunfiled, hgone⟩ := build_cleans hruntime hcleanup h
    have hfile : t.files.file? (s.files.resolve path) = none := by
      rw [hfiles]
      exact (file?_removeFile _ _ _).trans (if_pos rfl)
    have hnone : t.files.isFile path = false := by
      refine Bool.eq_false_iff.2 fun hthere => ?_
      obtain ⟨data, hdata⟩ := file?_of_isFile hthere
      have hplace : t.files.resolve path = s.files.resolve path := by rw [hfiles]; rfl
      rw [hplace, hfile] at hdata
      cases hdata
    obtain ⟨hloaded, hknown⟩ := hgone hnone
    refine ⟨(hunfiled.file _).trans hfile, ?_, hknown⟩
    rw [BuildCache.loaded?, hloaded]
    exact hentry
  have hspared : ¬ b.Stale path s →
      s'.files.file? (s.files.resolve path) = s.files.file? (s.files.resolve path) := by
    intro hnot
    obtain ⟨t, hcleanup, hfiles⟩ := cleanup_fails (s := takeOff path s) fun hstale => hnot { hstale with }
    obtain ⟨hunfiled, -⟩ := build_cleans hruntime hcleanup h
    rw [hunfiled.file, hfiles]
    rfl
  refine ⟨⟨fun hstale => ⟨hstale.file, (hdeleted hstale).1⟩, ?_⟩, fun hstale => (hdeleted hstale).2, hspared⟩
  rintro ⟨⟨data, hdata⟩, hgone⟩
  by_contra hnot
  rw [hspared hnot, hdata] at hgone
  cases hgone

end Builder

/-! An artifact of an earlier version that was loaded, and a draft of the next version. -/

namespace Barren

def outdated : Session :=
  ((reader.build [] place).run { session with
    files := { files := [(["App.py"], Text.encodeUtf8 source), (["App.txt"], [])] } }).2

def cleaner : Builder := { settings := { runtimeMode := false, debuggerAttached := true }, version := "2" }

theorem outdated_stale : cleaner.Stale place outdated := by
  have hfacts : cleaner.settings.cleanupEnabled = true ∧ place ∉ outdated.files.locked ∧
      (outdated.files.read? place).isOk = true ∧
        Stamp.ofFile? outdated.files place ≠ some cleaner.version := by decide +kernel
  obtain ⟨henabled, hunlocked, hread, hstamp⟩ := hfacts
  refine ⟨henabled, hunlocked, ?_, Or.inl hstamp⟩
  rcases h : outdated.files.read? place with e | data
  · rw [h] at hread
    cases hread
  · exact ⟨data, rfl⟩

theorem outdated_cleaned : ∃ r s', (cleaner.build [] place).run outdated = (r, s') ∧
    s'.files.file? (outdated.files.resolve place) = none ∧ s'.cache.loaded? place = none ∧
      s'.cache.known? place = some false ∧
        s'.files.file? ["App.txt"] = outdated.files.file? ["App.txt"] := by
  rcases h : (cleaner.build [] place).run outdated with ⟨r, s'⟩
  obtain ⟨hothers, hown⟩ := Builder.build_effects h
  obtain ⟨hdeleted, hforgotten, -⟩ := hown rfl
  have hother : ["App.txt"] ≠ outdated.files.resolve place := by decide +kernel
  exact ⟨r, s', rfl, (hdeleted.1 outdated_stale).2, (hforgotten outdated_stale).1,
    (hforgotten outdated_stale).2, hothers _ hother⟩

end Barren

end ModelContracts
