import ModelContracts.Proofs.Build.Failing

/-!
What a build does to the files of others, and to the world. It writes and deletes at its own place
only, and it makes folders only where there is nothing; so a file at another place can be read as
before. The world changes only by sources that are executed under the name of its module.
-/

namespace ModelContracts

namespace FileTree

/-- Besides a place all files are as before, and new folders stand where there was no file. -/
structure Beside (l : Location) (t t' : FileTree) : Prop where
  home : t'.home = t.home
  file : ∀ k, k ≠ l → t'.file? k = t.file? k
  kept : ∀ k, t.isFolderAt k = true → t'.isFolderAt k = true
  added : ∀ k, k ≠ l → (t.file? k).isSome = true → t'.isFolderAt k = true →
    t.isFolderAt k = true

variable {l : Location} {t t' t'' : FileTree}

theorem Beside.refl (l : Location) (t : FileTree) : Beside l t t :=
  ⟨rfl, fun _ _ => rfl, fun _ h => h, fun _ _ _ h => h⟩

theorem Beside.trans (h : Beside l t t') (h' : Beside l t' t'') : Beside l t t'' where
  home := h'.home.trans h.home
  file k hk := (h'.file k hk).trans (h.file k hk)
  kept k hk := h'.kept k (h.kept k hk)
  added k hk hfile hfolder :=
    h.added k hk hfile (h'.added k hk ((h.file k hk).symm ▸ hfile) hfolder)

theorem Beside.locate {p : Path} {k : Location} (h : Beside l t t') (hp : t.locate p = .ok k) :
    t'.locate p = .ok k := locate_of_kept h.home h.kept hp

/-- A file at another place is read as before. -/
theorem Beside.read {p : Path} {data : List UInt8} (h : Beside l t t')
    (hdata : t.read? p = .ok data) (hp : t.resolve p ≠ l) : t'.read? p = .ok data := by
  have hfile := file?_of_read? hdata
  unfold read? at hdata ⊢
  split at hdata
  · cases hdata
  next k hk =>
    obtain rfl := resolve_of_locate hk
    split_ifs at hdata with hfolder
    rw [h.locate hk]
    have hfolder' : t'.isFolderAt (t.resolve p) = false := by
      rw [Bool.eq_false_iff]
      exact fun hnew => hfolder (h.added _ hp (by rw [hfile]; rfl) hnew)
    simp only [hfolder', Bool.false_eq_true, if_false, h.file _ hp, hfile]

theorem beside_setFile (l : Location) (data : List UInt8) : Beside l t (t.setFile l data) where
  home := rfl
  file k hk := by rw [file?_setFile, if_neg hk]
  kept _ hk := hk
  added _ _ _ hk := hk

theorem beside_removeFile (l : Location) : Beside l t (t.removeFile l) where
  home := rfl
  file k hk := by rw [file?_removeFile, if_neg hk]
  kept _ hk := hk
  added _ _ _ hk := hk

theorem beside_addFolder {k : Location} (l : Location) (hk : t.file? k = none) :
    Beside l t { t with folders := t.folders ++ [k] } where
  home := rfl
  file _ _ := rfl
  kept m hm := by
    simp only [isFolderAt, List.contains_append] at hm ⊢
    rw [← Bool.or_assoc, hm, Bool.true_or]
  added m _ hfile hm := by
    have hmk : m ≠ k := by
      rintro rfl
      rw [hk] at hfile
      cases hfile
    simpa [isFolderAt, hmk] using hm

/-- A change at the place of a path, or besides it. -/
def Around (p : Path) (t t' : FileTree) : Prop := Beside (t.resolve p) t t'

theorem Around.resolve {p : Path} (h : Around p t t') (q : Path) :
    t'.resolve q = t.resolve q := resolve_of_home h.home q

instance (p : Path) : IsPreorder FileTree (Around p) where
  refl t := Beside.refl _ t
  trans _ _ _ h h' := Beside.trans h (h.resolve p ▸ h')

end FileTree

namespace Filing

open FileTree

variable (p : Path)

theorem locate_around (q : Path) : Keeps (Around p) (locate q) := by
  refine Keeps.get.bind fun t => ?_
  split
  · exact .pure _
  · exact .throw _

theorem makeFolder_around (q : Path) : Keeps (Around p) (makeFolder q) := by
  intro t
  unfold makeFolder
  rw [run_bind]
  rcases h : (locate q).run t with ⟨e | l, t'⟩
  · exact (locate_around p q).of_run h
  · obtain ⟨-, rfl⟩ := locate_ok h
    dsimp only
    rw [run_bind, run_get]
    dsimp only
    split_ifs with hthere
    · exact refl_of (Around p) _
    · rw [Bool.or_eq_true, not_or] at hthere
      exact beside_addFolder _ (by simpa using hthere.2)

theorem unlessFolder_around (q : Path) (e : FileError) : Keeps (Around p) (unlessFolder q e) := by
  refine Keeps.get.bind fun t => ?_
  split
  · exact .pure _
  · exact .throw _

theorem makeFolders_around (q : Path) : Keeps (Around p) (makeFolders q) := by
  unfold makeFolders
  induction q.parts.reverse with
  | nil => exact (makeFolder_around p _).tryCatch fun _ => unlessFolder_around p _ _
  | cons name outer ih =>
    refine (makeFolder_around p _).tryCatch fun e => ?_
    split
    · exact ih.bind fun _ =>
        (makeFolder_around p _).tryCatch fun _ => unlessFolder_around p _ _
    · exact unlessFolder_around p _ _

theorem write_around (data : List UInt8) : Keeps (Around p) (write p data) := by
  intro t
  rcases h : (write p data).run t with ⟨e | _, t'⟩
  · rw [write_unchanged h]
    exact refl_of (Around p) t
  · rw [write_ok h]
    exact beside_setFile _ data

theorem delete_around : Keeps (Around p) (delete p) := by
  intro t
  rcases h : (delete p).run t with ⟨e | _, t'⟩
  · rw [delete_unchanged h]
    exact refl_of (Around p) t
  · rw [delete_ok h]
    exact beside_removeFile _

end Filing

open FileTree Building

namespace Session

/-- Sources were executed under a name, one after the other, and the world is what they made of
it. -/
inductive Ran (name : String) : Session → Session → Prop
  | quiet {s s' : Session} (world : s'.world = s.world) (sources : s'.sources = s.sources) :
      Ran name s s'
  | failed {s s' : Session} (source : String) (world : s'.world = s.world)
      (sources : s'.sources = s.sources ++ [source]) : Ran name s s'
  | made {s s' : Session} (source : String) (m : Module)
      (outcome : Compilation.outcome s.world (s.sources.length + 1) source name =
        .ok (s'.world, m))
      (sources : s'.sources = s.sources ++ [source]) : Ran name s s'
  | next {s t s' : Session} (before : Ran name s t) (after : Ran name t s') : Ran name s s'

/-- The files are changed at the place of a path, or besides it; and the world by sources that are
executed under a name. -/
structure Touches (p : Path) (name : String) (s s' : Session) : Prop where
  files : FileTree.Around p s.files s'.files
  ran : Ran name s s'

instance (p : Path) (name : String) : IsPreorder Session (Touches p name) where
  refl s := ⟨refl_of (FileTree.Around p) s.files, .quiet rfl rfl⟩
  trans _ _ _ h h' := ⟨trans_of (FileTree.Around p) h.files h'.files, .next h.ran h'.ran⟩

variable {p : Path} {name : String}

theorem Touches.of_ran {s s' : Session} (h : Ran name s s') (hfiles : s'.files = s.files) :
    Touches p name s s' where
  files := by
    rw [hfiles]
    exact refl_of (FileTree.Around p) s.files
  ran := h

theorem filing_touches {α : Type} {m : Filing α} (h : Keeps (FileTree.Around p) m) :
    Keeps (Touches p name) (filing m) := fun s => ⟨h s.files, .quiet rfl rfl⟩

theorem modify_touches {f : Session → Session} (hfiles : ∀ s, (f s).files = s.files)
    (hworld : ∀ s, (f s).world = s.world) (hsources : ∀ s, (f s).sources = s.sources) :
    Keeps (Touches p name) (modify f : Building PUnit) :=
  Keeps.modify fun s => .of_ran (.quiet (hworld s) (hsources s)) (hfiles s)

theorem log_touches (r : LogRecord) : Keeps (Touches p name) (Building.log r) :=
  modify_touches (fun _ => rfl) (fun _ => rfl) fun _ => rfl

end Session

open Session

namespace Compilation

variable {p : Path} {name : String}

theorem checkLoader_touches (source : String) : Keeps (Touches p name) (checkLoader source p) := by
  unfold checkLoader
  split
  · exact .pure _
  · exact .throw _
  · exact .throw _

theorem runSource_touches (source origin : String) :
    Keeps (Touches p name) (runSource source p name origin) := by
  intro s
  rcases h : (runSource source p name origin).run s with ⟨e | m, s'⟩
  · obtain ⟨rfl, -⟩ := runSource_error h
    exact .of_ran (.failed source rfl rfl) rfl
  · obtain ⟨w, log, houtcome, rfl⟩ := runSource_ok h
    exact .of_ran (.made source m houtcome rfl) rfl

theorem execute_touches (source : String) (fromFile : Bool) :
    Keeps (Touches p name) (execute source p name fromFile) := by
  unfold execute
  split
  · exact (checkLoader_touches source).bind fun _ => runSource_touches source _
  · exact runSource_touches source _

theorem deleteIfThere_touches : Keeps (Touches p name) (deleteIfThere p) := by
  refine (filing_touches (Filing.delete_around p)).tryCatch fun e => ?_
  split
  · exact .pure _
  · exact .throw _

theorem executeOrDelete_touches (source : String) :
    Keeps (Touches p name) (executeOrDelete source p name) := by
  refine (execute_touches source true).tryCatch fun e => ?_
  split
  · exact deleteIfThere_touches.bind fun _ => .throw _
  · exact Keeps.throw _

theorem check_touches (source : String) (references : List String) :
    Keeps (Touches p name) (check source references p) := by
  refine Keeps.get.bind fun s => ?_
  dsimp only
  split
  · exact .pure _
  · exact .throw _

theorem install_touches (source : String) :
    Keeps (Touches p name) (install source p name) :=
  (filing_touches (Filing.makeFolders_around p _)).bind fun _ =>
    (filing_touches (Filing.write_around p _)).bind fun _ =>
      (log_touches _).bind fun _ => executeOrDelete_touches source

theorem compile_touches (source : String) (references : List String)
    (persist : Bool) : Keeps (Touches p name) (compile source references p name persist) := by
  refine Keeps.bind (modify_touches (fun _ => rfl) (fun _ => rfl) fun _ => rfl) fun _ =>
    (check_touches source references).bind fun _ => ?_
  split
  · exact install_touches source
  · exact execute_touches source false

theorem load_touches : Keeps (Touches p name) (load p name) := by
  refine Keeps.bind (modify_touches (fun _ => rfl) (fun _ => rfl) fun _ => rfl) fun _ =>
    Keeps.get.bind fun s => ?_
  split
  · exact .throw _
  · split
    · exact .throw _
    · exact (check_touches _ _).bind fun _ => execute_touches _ true

end Compilation

namespace Builder

variable (b : Builder) {p : Path} {name : String}

theorem deleteStale_touches : Keeps (Touches p name) (deleteStale p) := by
  intro s
  unfold deleteStale
  rw [run_bind, run_get]
  dsimp only
  rcases hdelete : (Filing.delete p).run s.files with ⟨e | _, files⟩
  · exact ⟨(Filing.delete_around p).of_run hdelete, .quiet rfl rfl⟩
  · exact ⟨(Filing.delete_around p).of_run hdelete, .quiet rfl rfl⟩

theorem lookFor_touches : Keeps (Touches p name) (lookFor p) :=
  fun _ => .of_ran (.quiet rfl rfl) rfl

theorem isMatch_touches : Keeps (Touches p name) (b.isMatch p) :=
  fun _ => .of_ran (.quiet rfl rfl) rfl

theorem cleanup_touches : Keeps (Touches p name) (b.cleanup p) := by
  unfold cleanup
  split
  · refine lookFor_touches.bind fun found => ?_
    split
    · refine b.isMatch_touches.bind fun fits => ?_
      split
      · exact deleteStale_touches
      · exact .pure _
    · exact .pure _
  · exact .pure _

theorem survey_touches : Keeps (Touches p name) (b.survey p) :=
  b.cleanup_touches.bind fun _ => lookFor_touches.bind fun _ =>
    b.isMatch_touches.bind fun _ => (log_touches _).bind fun _ => .pure _

theorem tryLoad_touches : Keeps (Touches p name) (tryLoad p name) := by
  refine (Compilation.load_touches).map.tryCatch fun e => ?_
  split
  · exact (log_touches _).bind fun _ => .pure _
  · exact .throw _

theorem loadArtifact_touches :
    Keeps (Touches p name) (b.loadArtifact p name) := by
  refine Keeps.get.bind fun s => ?_
  split
  · exact .pure _
  · refine tryLoad_touches.bind fun o => ?_
    split
    · exact .pure _
    · exact Keeps.bind (modify_touches (fun _ => rfl) (fun _ => rfl) fun _ => rfl) fun _ => .pure _

theorem fromDisk_touches (wanted : Bool) :
    Keeps (Touches p name) (b.fromDisk p name wanted) := by
  unfold fromDisk
  split
  · exact b.loadArtifact_touches
  · exact .pure _

theorem fromMemory_touches :
    Keeps (Touches p name) (b.fromMemory name) := by
  unfold fromMemory
  split
  · exact Keeps.get.bind fun _ => .pure _
  · exact .pure _

theorem reuse_touches : Keeps (Touches p name) (b.reuse p name) := by
  refine b.survey_touches.bind fun wanted =>
    (b.fromDisk_touches wanted).bind fun o => ?_
  split
  · exact (log_touches _).bind fun _ => .pure _
  · refine b.fromMemory_touches.bind fun o => ?_
    split
    · exact (log_touches _).bind fun _ => .pure _
    · exact .pure _

theorem derive_touches (components : List Component) :
    Keeps (Touches p name) (b.derive components p) :=
  Keeps.get.bind fun _ _ => .of_ran (.quiet rfl rfl) rfl

theorem logFailure_touches (e : BuildError) : Keeps (Touches p name) (logFailure p e) := by
  unfold logFailure
  split
  · exact log_touches _
  · exact .pure _

theorem compileSource_touches (plan : Blueprint) :
    Keeps (Touches p name) (b.compileSource plan p name) :=
  (Compilation.compile_touches _ _ _).tryCatch fun e =>
    (logFailure_touches e).bind fun _ => .throw _

theorem record_touches (m : Module) :
    Keeps (Touches p name) (b.record p name m) := by
  refine Keeps.bind (modify_touches (fun _ => rfl) (fun _ => rfl) fun _ => rfl) fun _ => ?_
  split
  · exact Keeps.bind (modify_touches (fun _ => rfl) (fun _ => rfl) fun _ => rfl) fun _ =>
      lookFor_touches.bind fun _ => .pure _
  · exact .pure _

theorem compile_touches (components : List Component) :
    Keeps (Touches p name) (b.compile components p name) :=
  (b.derive_touches components).bind fun plan =>
    (filing_touches (Filing.makeFolders_around p _)).bind fun _ =>
      (b.compileSource_touches plan).bind fun m =>
        (b.record_touches m).bind fun _ => (log_touches _).bind fun _ => .pure _

theorem run_touches (components : List Component) (p : Path) :
    Keeps (Touches p (Artifact.moduleName p)) (b.run components p) := by
  refine b.reuse_touches.bind fun o => ?_
  split
  · exact .pure _
  · exact b.compile_touches components

/-- A build changes the files at its own place only, and the world by what it executes under the
name of its module. -/
theorem build_touches (components : List Component) (p : Path) :
    Keeps (Touches p (Artifact.moduleName p)) (b.build components p) := by
  intro s
  have hrun := b.run_touches components p (takeOff p s)
  have hstart : Ran (Artifact.moduleName p) s (takeOff p s) := .quiet rfl rfl
  rw [build_eq]
  exact ⟨hrun.files, .next (.next hstart hrun.ran) (.quiet rfl rfl)⟩

end Builder

end ModelContracts
