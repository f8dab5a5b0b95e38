import ModelContracts.Proofs.Build.Sparing
import ModelContracts.Proofs.Build.Spelling
import ModelContracts.Proofs.Synthesis.Refusing

/-!
What builds fail with. Where the annotations can be told, the markers hold what is written of them, the file
can be written and an artifact that shows the version is a text, a build answers with a module or fails with a
declared error, unless it refuses an expression that stands where a type is written and is none.
-/

namespace ModelContracts

open FileTree Building Session

/-- An error that is declared for builds. -/
def BuildError.Declared : BuildError → Prop
  | .emission e => e.Declared
  | .compile _ => True
  | _ => False

instance : DecidablePred BuildError.Declared
  | .emission e => inferInstanceAs (Decidable e.Declared)
  | .compile _ => .isTrue trivial
  | .file _ | .undecodable | .extension => .isFalse id

/-- A declared error, or the refusal of an expression. -/
def BuildError.Regular (e : BuildError) : Prop :=
  e.Declared ∨ ∃ t : TypeExpr, t.Textless ∧ e = .emission (.unrenderable t)

/-! Room for a file. -/

namespace Filing

variable {p : Path} {t t' : FileTree} {e : FileError}

theorem makeFolder_ok (h : (makeFolder p).run t = (.ok ⟨⟩, t')) : t'.isFolder p = true := by
  obtain ⟨l, t₁, hl, hr⟩ := run_bind_ok h
  obtain ⟨hlocate, rfl⟩ := locate_ok hl
  rw [run_bind_of_ok (run_get t₁)] at hr
  split_ifs at hr
  · cases hr
  · cases hr
    let made : FileTree := { t₁ with folders := t₁.folders ++ [l] }
    have hkept (m : Location) (hm : t₁.isFolderAt m = true) : made.isFolderAt m = true := by
      simp only [made, isFolderAt, List.contains_append] at hm ⊢
      rw [← Bool.or_assoc, hm, Bool.true_or]
    have hlocate' : made.locate p = .ok l := @locate_of_kept t₁ made rfl hkept p l hlocate
    show made.isFolder p = true
    unfold isFolder
    rw [hlocate']
    simp [made, isFolderAt]

theorem unlessFolder_ok (h : (unlessFolder p e).run t = (.ok ⟨⟩, t')) : t'.isFolder p = true := by
  unfold unlessFolder at h
  rw [run_bind_of_ok (run_get t)] at h
  split_ifs at h with hfolder <;> cases h
  exact hfolder

theorem makeFolder_or_ok (h : (tryCatch (makeFolder p) (unlessFolder p)).run t = (.ok ⟨⟩, t')) :
    t'.isFolder p = true := by
  rw [run_tryCatch] at h
  rcases hmake : (makeFolder p).run t with ⟨e | _, t₁⟩ <;> rw [hmake] at h
  · exact unlessFolder_ok h
  · cases h
    exact makeFolder_ok hmake

/-- A folder that was made is there. -/
theorem makeFolders_ok (h : (makeFolders p).run t = (.ok ⟨⟩, t')) : t'.isFolder p = true := by
  unfold makeFolders at h
  rcases hparts : p.parts.reverse with _ | ⟨name, outer⟩ <;> rw [hparts, makeFoldersUpward] at h
  · have hp : p = ⟨p.root, []⟩ := by rw [← List.reverse_eq_nil_iff.1 hparts]
    rw [← hp] at h
    exact makeFolder_or_ok h
  · have hp : p = ⟨p.root, (name :: outer).reverse⟩ := by rw [← hparts, List.reverse_reverse]
    rw [← hp, run_tryCatch] at h
    rcases hmake : (makeFolder p).run t with ⟨e | _, t₁⟩ <;> rw [hmake] at h
    · dsimp only at h
      split_ifs at h
      · obtain ⟨_, t₂, -, hagain⟩ := run_bind_ok h
        exact makeFolder_or_ok hagain
      · exact unlessFolder_ok h
    · cases h
      exact makeFolder_ok hmake

/-- Making a folder that was made is nothing. -/
theorem makeFolders_again (h : (makeFolders p).run t = (.ok ⟨⟩, t')) :
    (makeFolders p).run t' = (.ok ⟨⟩, t') := by
  have hfolder := makeFolders_ok h
  unfold isFolder at hfolder
  split at hfolder
  next l hl => exact makeFolders_there hl hfolder
  · cases hfolder

end Filing

namespace FileTree

/-- A file can be written at a path, for which folders are made, and can be deleted again. -/
structure Writable (t : FileTree) (path : Path) : Prop where
  unlocked : path ∉ t.locked
  room : ∀ data, ∃ t', (do
    Filing.makeFolders path.parent
    Filing.write path data : Filing PUnit).run t = (.ok ⟨⟩, t')

variable {t t' : FileTree} {path : Path}

theorem Writable.folders (h : t.Writable path) :
    ∃ t', (Filing.makeFolders path.parent).run t = (.ok ⟨⟩, t') ∧ path ∉ t'.locked ∧
      ∀ data, ∃ t'', (Filing.write path data).run t' = (.ok ⟨⟩, t'') := by
  obtain ⟨_, hnone⟩ := h.room []
  obtain ⟨_, t', hfolders, -⟩ := run_bind_ok hnone
  refine ⟨t', hfolders, ?_, fun data => ?_⟩
  · rw [((Filing.makeFolders_keeps path.parent).of_run hfolders).locked]
    exact h.unlocked
  · obtain ⟨t'', hdata⟩ := h.room data
    rw [run_bind_of_ok hfolders] at hdata
    exact ⟨t'', hdata⟩

/-- There is room where the folder around is there and no folder in the way. -/
theorem writable_of_locate {k l : Location} (hunlocked : path ∉ t.locked)
    (hparent : t.locate path.parent = .ok k) (haround : t.isFolderAt k = true)
    (hlocate : t.locate path = .ok l) (hfolder : t.isFolderAt l = false) : t.Writable path where
  unlocked := hunlocked
  room data := by
    rw [run_bind_of_ok (Filing.makeFolders_there hparent haround)]
    exact ⟨_, Filing.write_there data hlocate hfolder⟩

/-- Where a file is deleted there is room for another. -/
theorem Writable.removed {data : List UInt8} (h : t.Writable path) (hread : t.read? path = .ok data) :
    (t.removeFile (t.resolve path)).Writable path := by
  obtain ⟨l, hl, hfolder, -⟩ := read?_ok hread
  obtain ⟨a, k, name, ha, -, hpath⟩ := leads_around hl hfolder
  have hbeside := beside_removeFile (t := t) (t.resolve path)
  have hleads := ha.beside hbeside
  have hparent : path.parent = a := by
    rw [hpath, Path.parent, List.dropLast_concat]
  exact writable_of_locate h.unlocked (hparent ▸ hleads.locate) hleads.isFolderAt (hbeside.locate hl)
    hfolder

end FileTree

namespace Compilation

variable {source name : String} {path : Path} {s s' : Session} {e : BuildError} {references : List String}
  {persist : Bool}

theorem executeOrDelete_regular {tree : FileTree} {data : List UInt8}
    (hwritten : (Filing.write path data).run tree = (.ok ⟨⟩, s.files)) (hunlocked : path ∉ s.files.locked)
    (hloader : loader path ≠ .extension)
    (h : (executeOrDelete source path name).run s = (.error e, s')) : ∃ f, e = .compile f := by
  unfold executeOrDelete at h
  rw [run_tryCatch] at h
  rcases hexecute : (execute source path name true).run s with ⟨e' | m, s₁⟩
  · rw [hexecute] at h
    obtain ⟨-, hfiles, ⟨f, rfl⟩ | ⟨-, hextension⟩⟩ := execute_error hexecute
    · rw [← hfiles] at hwritten hunlocked
      have hdelete := deleteIfThere_written hwritten
      rw [if_neg hunlocked] at hdelete
      dsimp only at h
      rw [run_bind_of_ok hdelete] at h
      cases h
      exact ⟨f, rfl⟩
    · exact (hloader hextension).elim
  · rw [hexecute] at h
    cases h

/-- Where the folders are and the file can be written, a compilation fails over its source alone. -/
theorem compile_regular (hfolders : (Filing.makeFolders path.parent).run s.files = (.ok ⟨⟩, s.files))
    (hunlocked : path ∉ s.files.locked)
    (hwrite : ∀ data, ∃ t, (Filing.write path data).run s.files = (.ok ⟨⟩, t))
    (hloader : loader path ≠ .extension)
    (h : (compile source references path name persist).run s = (.error e, s')) :
    ∃ f, e = .compile f := by
  unfold compile at h
  rw [run_bind_of_ok (run_modify _ _)] at h
  rcases run_bind_error h with hcheck | ⟨_, s₁, hcheck, h₁⟩
  · exact check_error hcheck
  · obtain rfl := (check_keeps references path).of_run hcheck
    split_ifs at h₁
    · obtain ⟨tree, hwritten⟩ := hwrite (Text.encodeUtf8 source)
      have hlocked : path ∉ tree.locked := by
        rw [Filing.write_ok hwritten]
        exact hunlocked
      unfold install at h₁
      rw [run_bind, run_filing, hfolders] at h₁
      dsimp only [Except.mapError] at h₁
      rw [run_bind, run_filing, hwritten] at h₁
      dsimp only [Except.mapError] at h₁
      rw [run_bind_of_ok (run_log _ _)] at h₁
      exact executeOrDelete_regular hwritten hlocked hloader h₁
    · exact (runSource_error h₁).2

end Compilation

namespace Builder

/-- A place for an artifact: a file can be written there that sources are loaded from, and one that is there
and shows the version is a text. -/
structure Placed (b : Builder) (path : Path) (s : Session) : Prop where
  writable : s.files.Writable path
  loader : Compilation.loader path ≠ .extension
  text : ∀ data, s.files.read? path = .ok data → Stamp.ofData? data = some b.version → fileText data ≠ none

variable (b : Builder) {path : Path} {name : String} {s s' : Session} {e : BuildError}
  {components : List Component}

/-- A place is as good as before. -/
def StaysPlaced (path : Path) (s s' : Session) : Prop := b.Placed path s → b.Placed path s'

instance : IsPreorder Session (b.StaysPlaced path) where
  refl _ := id
  trans _ _ _ h h' := h' ∘ h

variable {b}

theorem staysPlaced_of_files (h : s'.files = s.files) : b.StaysPlaced path s s' := by
  rintro ⟨hwritable, hloader, htext⟩
  exact ⟨h ▸ hwritable, hloader, h ▸ htext⟩

theorem staysPlaced_removed (h : s'.files = s.files.removeFile (s.files.resolve path))
    (hread : ∃ data, s.files.read? path = .ok data) : b.StaysPlaced path s s' := by
  rintro ⟨hwritable, hloader, -⟩
  obtain ⟨data, hdata⟩ := hread
  refine ⟨h ▸ hwritable.removed hdata, hloader, fun data' hdata' => ?_⟩
  have hfile := file?_of_read? hdata'
  rw [h] at hfile
  rw [show (s.files.removeFile (s.files.resolve path)).resolve path = s.files.resolve path from rfl,
    file?_removeFile, if_pos rfl] at hfile
  cases hfile

variable (b) in
theorem cleanup_staysPlaced : Keeps (b.StaysPlaced path) (b.cleanup path) := by
  intro s
  by_cases hstale : b.Stale path s
  · obtain ⟨t, hrun, hfiles, -⟩ := cleanup_deletes hstale
    rw [hrun]
    exact staysPlaced_removed hfiles hstale.there
  · obtain ⟨t, hrun, hfiles⟩ := cleanup_fails hstale
    rw [hrun]
    exact staysPlaced_of_files hfiles

variable (b) in
theorem survey_staysPlaced : Keeps (b.StaysPlaced path) (b.survey path) :=
  b.cleanup_staysPlaced.bind fun _ => Keeps.bind (fun _ => staysPlaced_of_files rfl) fun _ =>
    Keeps.bind (fun _ => staysPlaced_of_files rfl) fun _ =>
      Keeps.bind (fun _ => staysPlaced_of_files rfl) fun _ => .pure _

/-- An artifact that is wanted from such a place is loaded, or made anew. -/
theorem fromDisk_answers {wanted : Bool} (h : b.Placed path s)
    (hwanted : wanted = true → Stamp.isMatch s.files path b.version = true) :
    ∃ o t, (b.fromDisk path (Artifact.moduleName path) wanted).run s = (.ok o, t) ∧ b.Placed path t := by
  rcases hrun : (b.fromDisk path (Artifact.moduleName path) wanted).run s with ⟨r, t⟩
  have ht : b.Placed path t := staysPlaced_of_files (b.fromDisk_files wanted hrun) h
  unfold fromDisk at hrun
  split_ifs at hrun with hfrom
  · have hmatch := hwanted (Bool.and_eq_true_iff.1 hfrom).2
    obtain ⟨data, hread, hstamp⟩ := read_of_isMatch (of_decide_eq_true hmatch)
    rcases b.loadArtifact_ends hread hrun with ⟨m, rfl, -⟩ | ⟨rfl, -⟩ | ⟨e, -, ⟨-, htext⟩ | ⟨-, hloader⟩⟩
    · exact ⟨_, t, rfl, ht⟩
    · exact ⟨_, t, rfl, ht⟩
    · exact (h.text data hread hstamp htext).elim
    · exact (h.loader hloader).elim
  · cases hrun
    exact ⟨none, s, rfl, ht⟩

/-- Looking for something to reuse at such a place does not fail, and leaves the place as good as it was. -/
theorem reuse_answers (h : b.Placed path s) :
    ∃ o t, (b.reuse path (Artifact.moduleName path)).run s = (.ok o, t) ∧ b.Placed path t := by
  obtain ⟨wanted, t, hsurvey, hwanted⟩ := b.survey_succeeds path s
  obtain ⟨o, u, hdisk, hu⟩ := fromDisk_answers (b.survey_staysPlaced.of_run hsurvey h) hwanted
  unfold reuse
  rw [run_bind_of_ok hsurvey, run_bind_of_ok hdisk]
  cases o with
  | some m => exact ⟨_, _, rfl, { hu with }⟩
  | none =>
    obtain ⟨o, hmemory⟩ := fromMemory_run (b := b) (Artifact.moduleName path) u
    dsimp only
    rw [run_bind_of_ok hmemory]
    cases o with
    | some m => exact ⟨_, _, rfl, { hu with }⟩
    | none => exact ⟨_, _, rfl, hu⟩

theorem derive_regular (hlegible : ∀ c ∈ components, (b.synthesizer s.world path).Legible c.filter)
    (h : (b.derive components path).run s = (.error e, s')) : e.Regular := by
  have hresult : (b.drafting components path s).1.mapError BuildError.emission = .error e :=
    congrArg Prod.fst h
  rcases hdraft : b.drafting components path s with ⟨e' | plan, d⟩ <;> rw [hdraft] at hresult <;>
    cases hresult
  rcases Synthesizer.synthesize_regular hlegible hdraft with hdeclared | ⟨t, ht, rfl⟩
  · exact Or.inl hdeclared
  · exact Or.inr ⟨t, ht, rfl⟩

theorem compile_regular (hplaced : b.Placed path s)
    (hlegible : ∀ c ∈ components, (b.synthesizer s.world path).Legible c.filter)
    (h : (b.compile components path name).run s = (.error e, s')) : e.Regular := by
  rcases run_bind_error h with hderive | ⟨plan, s₁, hderive, h₁⟩
  · exact derive_regular hlegible hderive
  have hfiles₁ := ((b.derive_calm components).of_run hderive).files
  obtain ⟨tree, hfolders, hunlocked, hwrite⟩ := hplaced.writable.folders
  have hmake : (filing (Filing.makeFolders path.parent)).run s₁ = (.ok ⟨⟩, { s₁ with files := tree }) := by
    rw [run_filing, hfiles₁, hfolders]
    rfl
  rw [run_bind_of_ok hmake] at h₁
  rcases run_bind_error h₁ with hsource | ⟨m, s₃, -, h₃⟩
  · obtain ⟨t, hcompile, -⟩ := b.compileSource_failure hsource
    obtain ⟨f, rfl⟩ := Compilation.compile_regular (Filing.makeFolders_again hfolders) hunlocked hwrite
      hplaced.loader hcompile
    exact Or.inl trivial
  · obtain ⟨cache, hrecord, -⟩ := b.run_record path name m s₃
    rw [run_bind_of_ok hrecord] at h₃
    cases h₃

end Builder

/-! A class with one attribute. -/

namespace Sparse

def undeclared {α : Type} : Except BuildError α → Bool
  | .error e => !decide e.Declared
  | .ok _ => false

def noting (t : TypeExpr) : Session :=
  { session with world := { session.world with
      classes := [{ id := model, lineage := [model, ClassId.object], attributes := [("X", t)] }] } }

/-- An integer with a marker. -/
def marked (shape : MarkerShape) (v : Value) : TypeExpr :=
  .annotated (.cls ClassId.int) [(Marker.stock shape [v]).toValue]

def converted : Session := noting (marked .typeConverter (.text "app.A"))

def knob : Descriptor :=
  { name := "X", type := .cls ClassId.int, declaring := model, reflected := model, readable := true
    writable := true, attachments := [⟨0, Marker.stock .typeConverter [.text "app.A"]⟩], fresh := 1 }

theorem converted_legible : (builder.synthesizer converted.world place).Legible none := by
  refine Synthesizer.legible_of_described rfl fun info hinfo => ?_
  obtain rfl := List.mem_singleton.1 hinfo
  refine ⟨[knob], rfl, fun d hd m hm r hr => ?_⟩
  obtain rfl := List.mem_singleton.1 hd
  obtain rfl := List.mem_singleton.1 hm
  obtain rfl := Option.some.inj hr
  exact ⟨"app.A", rfl, by decide⟩

theorem writable_place : session.files.Writable place :=
  @writable_of_locate session.files place [] ["App.py"] nofun rfl rfl rfl rfl

/-- The file can be written, and a build for the class fails with an error that is not declared. -/
def Undeclared (t : TypeExpr) : Prop :=
  (noting t).files.Writable place ∧
    ∃ e s', (builder.build [component] place).run (noting t) = (.error e, s') ∧ ¬ e.Declared

theorem undeclared_of_run {t : TypeExpr}
    (h : undeclared ((builder.build [component] place).run (noting t)).1 = true) : Undeclared t := by
  refine ⟨writable_place, ?_⟩
  rcases hrun : (builder.build [component] place).run (noting t) with ⟨e | result, s'⟩ <;> rw [hrun] at h
  · exact ⟨e, s', rfl, by simpa [undeclared] using h⟩
  · cases h

end Sparse

end ModelContracts
