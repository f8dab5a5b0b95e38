import ModelContracts.Proofs.Build.Making

/-!
Modules loaded from artifacts. The cache keeps for each path the module that was loaded from it, and a
build that reuses it does not read the file again. What is kept agrees with the file, whichever builds
ran and however they ended, as long as every file has one path and only builds write the files: with
one exception, when a build could not delete the source that it had written and that had failed.
-/

namespace ModelContracts

open FileTree Building Session

namespace Session

/-- The data of a file are a text, as it was written or as it is read. -/
def Holds (data : List UInt8) (source : String) : Prop :=
  data = Text.encodeUtf8 source ∨ fileText data = some source

/-- A module that was made from the source that stands at a path, if one stands there. -/
def Trusted (s : Session) (path : Path) (m : Module) : Prop :=
  Compilation.loader path = .source ∧ ∃ source, Executed s m source ∧
    ∀ data, s.files.file? (s.files.resolve path) = some data → Holds data source

/-- The path stands for a module that was made from its file. -/
structure Renewed (path : Path) (m : Module) (s s' : Session) : Prop extends Frame path s s' where
  entry : s'.cache.loaded? path = some m
  trusted : Trusted s' path m

variable {path : Path} {s s₁ s' : Session} {m : Module}

theorem Kept.renewed (h : Kept path s s₁) (h' : Renewed path m s₁ s') :
    Renewed path m s s' where
  toFrame := h.toFrame.trans h'.toFrame
  entry := h'.entry
  trusted := h'.trusted

theorem Trusted.kept (h : Trusted s path m) (hkept : Kept path s s') : Trusted s' path m := by
  obtain ⟨hloader, source, hexecuted, hdata⟩ := h
  refine ⟨hloader, source, hexecuted.mono hkept.sources, fun data hfile => ?_⟩
  rw [hkept.resolve] at hfile
  exact hdata data (some_of_same_or_gone hkept.file hfile)

/-- A build for another file does not matter. -/
theorem Trusted.frame {p : Path} (h : Trusted s p m) (hframe : Frame path s s')
    (hp : s.files.resolve p ≠ s.files.resolve path) : Trusted s' p m := by
  obtain ⟨hloader, source, hexecuted, hdata⟩ := h
  refine ⟨hloader, source, hexecuted.mono hframe.sources, fun data hfile => ?_⟩
  rw [hframe.resolve, hframe.files _ hp] at hfile
  exact hdata data hfile

end Session

namespace Builder

variable (b : Builder) {path : Path} {s s' : Session}

/-- A build that makes a module renews its path, if it keeps files. -/
theorem compile_made {components : List Component} {moduleName : String}
    {result : BuildResult Module}
    (h : (b.compile components path moduleName).run s = (.ok result, s')) :
    result.state = .compiled ∧ (Kept path s s' ∨ ∃ m, Renewed path m s s') := by
  obtain ⟨hstate, plan, s₁, s₂, s₃, -, -, hundone, hsource, hrecords⟩ := b.compile_ok h
  refine ⟨hstate, ?_⟩
  obtain ⟨hframe, hcache, hborn, hmade⟩ := Compilation.compile_made hsource
  have hrecorded := hrecords.frame
  have hwhole : Frame path s s' := (hundone.toFrame.trans hframe).trans hrecorded
  have hentry := hrecords.loaded path
  split_ifs at hmade with hruntime
  · obtain ⟨hloader, hfile⟩ := hmade
    refine Or.inr ⟨result.module, { hwhole with
      entry := hentry.trans (if_pos ⟨hruntime, rfl⟩)
      trusted := ⟨hloader, plan.source, hborn.executed.mono hrecorded.sources,
        fun data hdata => ?_⟩ }⟩
    rw [hrecords.files] at hdata
    exact Or.inl (Option.some.inj (hdata.symm.trans (file?_of_read? hfile)))
  · refine Or.inl { hwhole with entry := ?_, file := ?_ }
    · rw [hentry, if_neg fun hand => hruntime hand.1, hcache]
      exact hundone.entry
    · rw [hrecords.files, hmade]
      exact hundone.file

/-- A module that is loaded from the artifact renews the path, too. -/
theorem load_renewed {moduleName : String} {m : Module} (log : List LogRecord)
    (h : (Compilation.load path moduleName).run s = (.ok m, s')) :
    Renewed path m s { s' with
      cache := (s'.cache.putLoaded path m).putModule moduleName m, log := log } ∧
        ∃ data, s'.files.file? (s'.files.resolve path) = some data := by
  obtain ⟨hloader, data, source, hdata, htext, hmade⟩ := Compilation.load_made h
  rw [← hmade.files] at hdata
  refine ⟨{ hmade.frame path with
    others := fun p hp => ?_
    entry := (BuildCache.loaded?_putLoaded _ _ _ _).trans (if_pos rfl)
    trusted := ⟨hloader, source, hmade.executed, fun data' hdata' => ?_⟩ }, data, hdata⟩
  · exact ((BuildCache.loaded?_putLoaded _ _ _ _).trans (if_neg hp)).trans (by rw [hmade.cache])
  · obtain rfl : data' = data := Option.some.inj (hdata'.symm.trans hdata)
    exact Or.inr htext

theorem reused_memory_ne (path : Path) : reused path "memory" ≠ reused path "disk" := by
  intro h
  have hmessage := congrArg LogRecord.message h
  simp only [reused, LogRecord.build, String.append_right_inj] at hmessage
  exact absurd hmessage (by decide)

theorem run_ok {components : List Component} {result : BuildResult Module}
    (h : (b.run components path).run s = (.ok result, s')) :
    (Kept path s s' ∨ ∃ m, Renewed path m s s') ∧
      (result.state = .reused → s'.log.getLast? = some (reused path "disk") →
        s'.cache.loaded? path = some result.module ∧
          ∃ data, s'.files.file? (s'.files.resolve path) = some data) := by
  obtain ⟨o, s₁, hreuse, h₁⟩ := run_bind_ok h
  rcases b.reuse_cases path hreuse with ⟨m, s₂, hr, hundone, hentry, -, hdata, log, rfl⟩ |
    ⟨m, s₂, s₃, hr, hundone, hload, log, rfl⟩ | ⟨m, hr, hundone, -, hlog⟩ | ⟨hundone, hnone⟩
  · cases hr
    cases h₁
    exact ⟨Or.inl { hundone.toKept with }, fun _ _ => ⟨hentry, hdata⟩⟩
  · cases hr
    cases h₁
    obtain ⟨hrenewed, hdata⟩ := load_renewed log hload
    exact ⟨Or.inr ⟨m, hundone.toKept.renewed hrenewed⟩, fun _ _ => ⟨hrenewed.entry, hdata⟩⟩
  · cases hr
    cases h₁
    refine ⟨Or.inl hundone.toKept, fun _ hdisk => ?_⟩
    exact (reused_memory_ne path (Option.some.inj (hlog.symm.trans hdisk))).elim
  · cases o with
    | some m => exact (hnone m rfl).elim
    | none =>
      obtain ⟨hstate, hkept | ⟨m, hrenewed⟩⟩ := b.compile_made h₁
      · refine ⟨Or.inl (hundone.toKept.trans hkept), fun hreused => ?_⟩
        rw [hstate] at hreused
        cases hreused
      · refine ⟨Or.inr ⟨m, hundone.toKept.renewed hrenewed⟩, fun hreused => ?_⟩
        rw [hstate] at hreused
        cases hreused

/-- What a build does to the module that its path stands for. -/
theorem build_cases {components : List Component} {r : Except BuildError (BuildResult Module)}
    (h : (b.build components path).run s = (r, s')) :
    Kept path s s' ∨ (∃ m, Renewed path m s s') ∨
      ∃ e, r = .error e ∧ b.LeavesSource path components s s' e := by
  obtain ⟨t, hrun, rfl⟩ := b.run_of_build path h
  have hstart := takeOff_undone path s
  have hend := land_undone path (s.files.resolve path) t
  cases r with
  | ok result =>
    rcases (b.run_ok hrun).1 with hkept | ⟨m, hrenewed⟩
    · exact Or.inl ((hstart.toKept.trans hkept).trans hend.toKept)
    · exact Or.inr (Or.inl ⟨m, { hstart.toKept.renewed hrenewed with }⟩)
  | error e =>
    rcases b.run_error path hrun with ⟨-, hundone⟩ | ⟨-, ⟨hundone, -⟩ | hleaves⟩
    · exact Or.inl ((hstart.trans hundone).trans hend).toKept
    · exact Or.inl ((hstart.trans hundone).trans hend).toKept
    · obtain ⟨hruntime, ⟨plan, v, v', hplan, hworld, hleft⟩, he⟩ := hleaves.after hstart
      exact Or.inr (Or.inr ⟨e, rfl, hruntime, ⟨plan, v, v', hplan, hworld, { hleft with }⟩, he⟩)

theorem build_frame (components : List Component) (path : Path) :
    Keeps (Frame path) (b.build components path) := by
  intro s
  rcases hbuild : (b.build components path).run s with ⟨r, s'⟩
  rcases b.build_cases hbuild with hkept | ⟨m, hrenewed⟩ | ⟨e, -, -, ⟨_, _, _, -, -, hleft⟩, -⟩
  · exact hkept.toFrame
  · exact hrenewed.toFrame
  · exact hleft.toFrame

end Builder

/-! Runs of builds over one cache. -/

/-- Every file is named by one path. -/
def OneSpelling (paths : Path → Prop) (t : FileTree) : Prop :=
  ∀ p q, paths p → paths q → t.resolve p = t.resolve q → p = q

/-- The module that a path stood for when a build at it ended with its source left there. -/
def stranded (s : Session) (path : Path) :
    Except BuildError (BuildResult Module) → List (Path × Module)
  | .error (.file .locked) => (s.cache.loaded? path).toList.map fun m => (path, m)
  | _ => []

/-- Builds one after the other, by any builders, from an empty cache. Meanwhile the cache is cleared,
files are locked and unlocked, and the process goes on; but nothing else writes a file. The modules
that were stranded are told. -/
inductive Runs (paths : Path → Prop) : List (Path × Module) → Session → Prop
  | start {s : Session} (hempty : s.cache.loaded = []) (hspelling : OneSpelling paths s.files) :
      Runs paths [] s
  | build {lost : List (Path × Module)} {s : Session} (h : Runs paths lost s) (b : Builder)
      (components : List Component) {path : Path} (hpath : paths path) :
      Runs paths (stranded s path ((b.build components path).run s).1 ++ lost)
        ((b.build components path).run s).2
  | clear {lost : List (Path × Module)} {s : Session} (h : Runs paths lost s) :
      Runs paths lost (clearCache.run s).2
  | lock {lost : List (Path × Module)} {s : Session} (h : Runs paths lost s)
      (locked : List Path) : Runs paths lost { s with files := { s.files with locked := locked } }
  | world {lost : List (Path × Module)} {s : Session} (h : Runs paths lost s) (w : World) :
      Runs paths lost { s with world := w }

/-- Every module that was loaded from a path and is not stranded was made from the file there. -/
structure Coherent (paths : Path → Prop) (lost : List (Path × Module)) (s : Session) : Prop where
  spelling : OneSpelling paths s.files
  spelled : ∀ p m, s.cache.loaded? p = some m → paths p
  trusted : ∀ p m, s.cache.loaded? p = some m → (p, m) ∉ lost → Trusted s p m

variable {paths : Path → Prop} {lost : List (Path × Module)} {s s' : Session} {path : Path}

theorem OneSpelling.frame (h : OneSpelling paths s.files) (hframe : Frame path s s') :
    OneSpelling paths s'.files := by
  intro p q hp hq hresolve
  rw [hframe.resolve, hframe.resolve] at hresolve
  exact h p q hp hq hresolve

theorem Coherent.others (h : Coherent paths lost s) (hframe : Frame path s s')
    (hpath : paths path) {p : Path} {m : Module} (hp : p ≠ path)
    (hm : s'.cache.loaded? p = some m) : paths p ∧ ((p, m) ∉ lost → Trusted s' p m) := by
  rw [hframe.others p hp] at hm
  have hspelled := h.spelled p m hm
  refine ⟨hspelled, fun hlost => (h.trusted p m hm hlost).frame hframe fun hresolve => ?_⟩
  exact hp (h.spelling p path hspelled hpath hresolve)

/-- What holds of the path itself is enough. -/
theorem Coherent.of_frame {more : List (Path × Module)} (h : Coherent paths lost s)
    (hframe : Frame path s s') (hpath : paths path)
    (hself : ∀ m, s'.cache.loaded? path = some m → (path, m) ∉ more ++ lost →
      Trusted s' path m) : Coherent paths (more ++ lost) s' where
  spelling := h.spelling.frame hframe
  spelled p m hm := by
    by_cases hp : p = path
    · exact hp ▸ hpath
    · exact (h.others hframe hpath hp hm).1
  trusted p m hm hlost := by
    by_cases hp : p = path
    · subst hp
      exact hself m hm hlost
    · exact (h.others hframe hpath hp hm).2 fun hmem => hlost (List.mem_append_right _ hmem)

theorem Coherent.build (h : Coherent paths lost s) (b : Builder) (components : List Component)
    (hpath : paths path) :
    Coherent paths (stranded s path ((b.build components path).run s).1 ++ lost)
      ((b.build components path).run s).2 := by
  rcases hbuild : (b.build components path).run s with ⟨r, s'⟩
  rcases b.build_cases hbuild with hkept | ⟨m', hrenewed⟩ | ⟨e, rfl, -, ⟨_, _, _, -, -, hleft⟩, he⟩
  · refine h.of_frame hkept.toFrame hpath fun m hm hlost => ?_
    have hbefore := some_of_same_or_gone hkept.entry hm
    exact (h.trusted path m hbefore fun hmem => hlost (List.mem_append_right _ hmem)).kept hkept
  · refine h.of_frame hrenewed.toFrame hpath fun m hm _ => ?_
    obtain rfl : m' = m := Option.some.inj (hrenewed.entry.symm.trans hm)
    exact hrenewed.trusted
  · refine h.of_frame hleft.toFrame hpath fun m hm hlost => ?_
    have hbefore := some_of_same_or_gone hleft.entry hm
    rcases he with ⟨rfl, hloader⟩ | ⟨rfl, -⟩
    · -- Nothing is ever loaded from a file that is named like a binary module.
      obtain ⟨hsource, -⟩ := h.trusted path m hbefore hlost
      rw [hloader] at hsource
      cases hsource
    · refine (hlost (List.mem_append_left _ ?_)).elim
      simp [stranded, hbefore]

theorem Runs.coherent (h : Runs paths lost s) : Coherent paths lost s := by
  induction h with
  | start hempty hspelling =>
    refine ⟨hspelling, fun p m hm => ?_, fun p m hm => ?_⟩ <;>
      rw [BuildCache.loaded?, hempty] at hm <;> cases hm
  | build _ b components hpath ih => exact ih.build b components hpath
  | clear _ ih => exact ⟨ih.spelling, fun _ _ => nofun, fun _ _ => nofun⟩
  | lock _ locked ih => exact ⟨ih.spelling, ih.spelled, ih.trusted⟩
  | world _ w ih => exact ⟨ih.spelling, ih.spelled, ih.trusted⟩

/-- A module that is reused from disk, and is not stranded, was made from exactly the source that
the file holds. -/
theorem reused_from_disk_holds (hruns : Runs paths lost s) {b : Builder}
    {components : List Component} (hpath : paths path) {result : BuildResult Module}
    (h : (b.build components path).run s = (.ok result, s')) (hstate : result.state = .reused)
    (hdisk : s'.log.getLast? = some (Builder.reused path "disk"))
    (hlost : (path, result.module) ∉ lost) :
    ∃ data source, s'.files.file? (s'.files.resolve path) = some data ∧ Holds data source ∧
      Executed s' result.module source := by
  have hcoherent := hruns.coherent.build b components hpath
  rw [h] at hcoherent
  rcases hrun : (b.run components path).run (Builder.takeOff path s) with ⟨r, t⟩
  rw [Builder.build_eq, hrun] at h
  cases h
  obtain ⟨hentry, data, hdata⟩ := (b.run_ok hrun).2 hstate hdisk
  obtain ⟨-, source, hexecuted, hholds⟩ := hcoherent.trusted path result.module hentry hlost
  exact ⟨data, source, hdata, hholds data hdata, hexecuted⟩

/-! A locked artifact in a world without classes. -/

namespace Barren

def place : Path := Path.ofText "App.py"

def source : String := "__generator_version__ = \"1\"\n"

def stamped : Session :=
  { session with files :=
      { files := [(["App.py"], Text.encodeUtf8 source)], locked := [place] } }

def reader : Builder := { settings := { runtimeMode := true }, version := "1" }

def forcer : Builder := { settings := { runtimeMode := true, forceRebuild := true }, version := "1" }

def loaded : Session := ((reader.build [] place).run stamped).2

theorem place_spelling (t : FileTree) : OneSpelling (· = place) t :=
  fun _ _ hp hq _ => hp.trans hq.symm

theorem runs_loaded : Runs (· = place)
    (stranded stamped place ((reader.build [] place).run stamped).1 ++ []) loaded :=
  (Runs.start rfl (place_spelling _)).build reader [] rfl

theorem loaded_holds : ∃ result s', (reader.build [] place).run loaded = (.ok result, s') ∧
    ∃ data source, s'.files.file? (s'.files.resolve place) = some data ∧ Holds data source ∧
      Executed s' result.module source := by
  have hfacts : (((reader.build [] place).run loaded).1.toOption.map (·.state)) = some .reused ∧
      ((reader.build [] place).run loaded).2.log.getLast? = some (Builder.reused place "disk") ∧
      stranded stamped place ((reader.build [] place).run stamped).1 = [] := by decide +kernel
  obtain ⟨hstate, hdisk, hlost⟩ := hfacts
  rcases h : (reader.build [] place).run loaded with ⟨r | result, s'⟩
  · rw [h] at hstate
    cases hstate
  · rw [h] at hstate hdisk
    refine ⟨result, s', rfl, reused_from_disk_holds runs_loaded rfl h (Option.some.inj hstate) hdisk ?_⟩
    rw [hlost]
    exact List.not_mem_nil

/-- After a build that left its source, the module of the source before it is reused. -/
theorem left_not_holds : ∃ lost s result s', Runs (· = place) lost s ∧
    (reader.build [] place).run s = (.ok result, s') ∧ result.state = .reused ∧
      s'.log.getLast? = some (Builder.reused place "disk") ∧
        ¬ ∃ data source, s'.files.file? (s'.files.resolve place) = some data ∧ Holds data source ∧
          Executed s' result.module source := by
  obtain ⟨lost, left, hruns, hstate, hdisk, hsource, hdata⟩ : ∃ lost left,
      Runs (· = place) lost left ∧
        (((reader.build [] place).run left).1.toOption.map fun result =>
          (result.state, result.module.number)) = some (.reused, 1) ∧
        ((reader.build [] place).run left).2.log.getLast? = some (Builder.reused place "disk") ∧
        ((reader.build [] place).run left).2.sources[0]? = some source ∧
        (((reader.build [] place).run left).2.files.file?
          (((reader.build [] place).run left).2.files.resolve place)).all fun data =>
            data ≠ Text.encodeUtf8 source ∧ fileText data ≠ some source :=
    ⟨_, _, runs_loaded.build forcer [] rfl, by decide +kernel⟩
  rcases h : (reader.build [] place).run left with ⟨r | result, s'⟩
  · rw [h] at hstate
    cases hstate
  · rw [h] at hstate hdisk hsource hdata
    obtain ⟨hreused, hnumber⟩ := Prod.mk.inj (Option.some.inj hstate)
    refine ⟨lost, left, result, s', hruns, h, hreused, hdisk, ?_⟩
    rintro ⟨data, text, hfile, hholds, -, htext, -⟩
    rw [hnumber, hsource] at htext
    cases htext
    rw [hfile] at hdata
    obtain ⟨hencoded, hread⟩ := of_decide_eq_true hdata
    exact hholds.elim hencoded hread

end Barren

end ModelContracts
