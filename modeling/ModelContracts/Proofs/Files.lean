import Mathlib.Tactic.SplitIfs
import ModelContracts.File.Tree
import ModelContracts.Proofs.Running

/-!
What the operations on the tree of files change. Making folders leaves the files as they are; writing
and deleting change the file at one place, which is the one that the path resolves to.
-/

namespace ModelContracts

namespace FileTree

/-- The same files; the folders may differ. -/
structure SameFiles (t t' : FileTree) : Prop where
  home : t'.home = t.home
  locked : t'.locked = t.locked
  file : ∀ l, t'.file? l = t.file? l

instance : IsPreorder FileTree SameFiles where
  refl _ := ⟨rfl, rfl, fun _ => rfl⟩
  trans _ _ _ h h' :=
    ⟨h'.home.trans h.home, h'.locked.trans h.locked, fun l => (h'.file l).trans (h.file l)⟩

theorem resolve_of_home {t t' : FileTree} (h : t'.home = t.home) (p : Path) :
    t'.resolve p = t.resolve p := by unfold resolve start; rw [h]

/-- Where a path can be followed, it is followed to the place that it resolves to. -/
theorem resolve_of_locate {t : FileTree} {p : Path} {l : Location} (h : t.locate p = .ok l) :
    t.resolve p = l := by
  have hfrom : ∀ (names : List String) (k : Location), t.locateFrom k names = .ok l →
      names.foldl (fun l name => if name = ".." then l.dropLast else l ++ [name]) k = l := by
    intro names
    induction names with
    | nil =>
      intro k hk
      cases hk
      rfl
    | cons name rest ih =>
      intro k hk
      cases rest with
      | nil =>
        cases hk
        rfl
      | cons next rest =>
        obtain ⟨k', henter, hrest⟩ := except_bind_ok hk
        have hk' : k' = if name = ".." then k.dropLast else k ++ [name] := by
          unfold enter at henter
          split_ifs at henter ⊢ <;> cases henter <;> rfl
        rw [List.foldl_cons, ← hk']
        exact ih k' hrest
  exact hfrom p.parts (t.start p) h

@[simp] theorem isFolderAt_setFile (t : FileTree) (l k : Location) (data : List UInt8) :
    (t.setFile l data).isFolderAt k = t.isFolderAt k := rfl

@[simp] theorem locked_setFile (t : FileTree) (l : Location) (data : List UInt8) :
    (t.setFile l data).locked = t.locked := rfl

section Kept

variable {t t' : FileTree} (hhome : t'.home = t.home)
  (hkept : ∀ l, t.isFolderAt l = true → t'.isFolderAt l = true)

include hkept

theorem enter_of_kept {l k : Location} {name : String} (h : t.enter l name = .ok k) :
    t'.enter l name = .ok k := by
  unfold enter at h ⊢
  split_ifs at h with hup hfolder
  · rw [if_pos hup, h]
  · rw [if_neg hup, if_pos (hkept _ hfolder), h]

include hhome

/-- Where a path leads is a matter of the folders alone, and more folders are not in the way. -/
theorem locate_of_kept {p : Path} {l : Location} (h : t.locate p = .ok l) : t'.locate p = .ok l := by
  have hfrom : ∀ (names : List String) (m : Location), t.locateFrom m names = .ok l →
      t'.locateFrom m names = .ok l := by
    intro names
    induction names with
    | nil => exact fun _ hm => hm
    | cons name rest ih =>
      intro m hm
      cases rest with
      | nil => exact hm
      | cons next rest =>
        obtain ⟨m', henter, hrest⟩ := except_bind_ok hm
        have hbind : t'.locateFrom m (name :: next :: rest) = t'.locateFrom m' (next :: rest) := by
          simp only [locateFrom, enter_of_kept hkept henter, Except.bind]
        rw [hbind]
        exact ih m' hrest
  have hstart : t'.start p = t.start p := by rw [start, hhome, start]
  rw [locate, hstart]
  exact hfrom p.parts (t.start p) h

end Kept

theorem locate_of_folders {t t' : FileTree} (hhome : t'.home = t.home)
    (hfolders : t'.folders = t.folders) {p : Path} {l : Location} (h : t.locate p = .ok l) :
    t'.locate p = .ok l := by
  refine locate_of_kept hhome (fun m hm => ?_) h
  rwa [isFolderAt, hhome, hfolders]

/-- A new file is not in the way of paths that could be followed before. -/
theorem locate_setFile {t : FileTree} {p : Path} {l k : Location} {data : List UInt8}
    (h : t.locate p = .ok l) : (t.setFile k data).locate p = .ok l :=
  @locate_of_folders t (t.setFile k data) rfl rfl p l h

/-- Every folder lies in a folder. -/
def Nested (t : FileTree) : Prop := ∀ l ∈ t.folders, t.isFolderAt l.dropLast = true

theorem Nested.dropLast {t : FileTree} (h : t.Nested) {l : Location} (hl : t.isFolderAt l = true) :
    t.isFolderAt l.dropLast = true := by
  rcases Bool.or_eq_true_iff.1 hl with hhome | hmem
  · have hprefix := (List.dropLast_prefix l).trans (List.isPrefixOf_iff_prefix.1 hhome)
    exact Bool.or_eq_true_iff.2 (Or.inl (List.isPrefixOf_iff_prefix.2 hprefix))
  · exact h l (List.contains_iff_mem.1 hmem)

theorem Nested.enter {t : FileTree} (h : t.Nested) {l k : Location} {name : String}
    (hl : t.isFolderAt l = true) (hk : t.enter l name = .ok k) :
    t.isFolderAt k = true ∧ k = if name = ".." then l.dropLast else l ++ [name] := by
  unfold FileTree.enter at hk
  split_ifs at hk ⊢ with hup hfolder
  · cases hk
    exact ⟨h.dropLast hl, rfl⟩
  · cases hk
    exact ⟨hfolder, rfl⟩

/-- The folder around a place to which a path leads is there. -/
theorem Nested.locate_parent {t : FileTree} (h : t.Nested) {p : Path} {l : Location}
    (hp : t.locate p = .ok l) : ∃ k, t.locate p.parent = .ok k ∧ t.isFolderAt k = true := by
  have hfrom : ∀ (names : List String) (m : Location), t.isFolderAt m = true →
      t.locateFrom m names = .ok l →
      ∃ k, t.locateFrom m names.dropLast = .ok k ∧ t.isFolderAt k = true := by
    intro names
    induction names with
    | nil => exact fun m hm _ => ⟨m, rfl, hm⟩
    | cons name rest ih =>
      intro m hm hnames
      cases rest with
      | nil => exact ⟨m, rfl, hm⟩
      | cons next rest =>
        obtain ⟨m', henter, hrest⟩ := except_bind_ok hnames
        obtain ⟨hm', heq⟩ := h.enter hm henter
        obtain ⟨k, hk, hfolder⟩ := ih m' hm' hrest
        cases rest with
        | nil => exact ⟨m', by rw [heq]; rfl, hm'⟩
        | cons last rest =>
          refine ⟨k, ?_, hfolder⟩
          rw [List.dropLast_cons_cons] at hk ⊢
          simp only [List.dropLast_cons_cons, locateFrom, henter, Except.bind] at hk ⊢
          exact hk
  have hstart : t.isFolderAt (t.start p) = true := by
    unfold start isFolderAt
    split_ifs
    · simp
    · simp
  exact hfrom p.parts (t.start p) hstart hp

theorem file?_of_isFile {t : FileTree} {p : Path} (h : t.isFile p = true) :
    ∃ data, t.file? (t.resolve p) = some data := by
  unfold isFile at h
  split at h
  next l hl =>
    rw [resolve_of_locate hl]
    exact Option.isSome_iff_exists.1 h
  · cases h

/-- What is read at a path stands where the path leads, and no folder does. -/
theorem read?_ok {t : FileTree} {p : Path} {data : List UInt8} (h : t.read? p = .ok data) :
    ∃ l, t.locate p = .ok l ∧ t.isFolderAt l = false ∧ t.file? l = some data := by
  unfold read? at h
  split at h
  · cases h
  next l hl =>
    split_ifs at h with hfolder
    split at h
    next data' hdata =>
      cases h
      exact ⟨l, hl, Bool.eq_false_iff.2 hfolder, hdata⟩
    · cases h

theorem file?_of_read? {t : FileTree} {p : Path} {data : List UInt8} (h : t.read? p = .ok data) :
    t.file? (t.resolve p) = some data := by
  obtain ⟨l, hl, -, hdata⟩ := read?_ok h
  rwa [resolve_of_locate hl]

theorem isFile_of_read? {t : FileTree} {p : Path} {data : List UInt8} (h : t.read? p = .ok data) :
    t.isFile p = true := by
  obtain ⟨l, hl, -, hdata⟩ := read?_ok h
  rw [isFile, hl]
  dsimp only
  rw [hdata]
  rfl

end FileTree

namespace Filing

open FileTree

theorem locate_keeps (p : Path) : Keeps SameFiles (locate p) := by
  refine Keeps.get.bind fun t => ?_
  split
  · exact .pure _
  · exact .throw _

theorem locate_ok {p : Path} {t t' : FileTree} {l : Location}
    (h : (locate p).run t = (.ok l, t')) : t.locate p = .ok l ∧ t' = t := by
  unfold locate at h
  rw [run_bind, run_get] at h
  dsimp only at h
  split at h
  next l' hl' =>
    cases h
    exact ⟨hl', rfl⟩
  · cases h

theorem locate_error {p : Path} {t t' : FileTree} {e : FileError}
    (h : (locate p).run t = (.error e, t')) : t' = t := by
  unfold locate at h
  rw [run_bind, run_get] at h
  dsimp only at h
  split at h <;> cases h
  rfl

theorem locate_run {p : Path} {t : FileTree} {l : Location} (h : t.locate p = .ok l) :
    (locate p).run t = (.ok l, t) := by
  unfold locate
  rw [run_bind_of_ok (run_get t), h]
  rfl

/-- A folder that is there is not made. -/
theorem makeFolders_there {p : Path} {t : FileTree} {k : Location} (hlocate : t.locate p = .ok k)
    (hfolder : t.isFolderAt k = true) : (makeFolders p).run t = (.ok ⟨⟩, t) := by
  have hexists : (makeFolder p).run t = (.error .exists, t) := by
    unfold makeFolder
    rw [run_bind_of_ok (locate_run hlocate), run_bind_of_ok (run_get t)]
    simp [hfolder, run_throw]
  have hunless : (unlessFolder p .exists).run t = (.ok ⟨⟩, t) := by
    have hthere : t.isFolder p = true := by
      unfold isFolder
      rw [hlocate]
      exact hfolder
    unfold unlessFolder
    rw [run_bind_of_ok (run_get t), if_pos hthere]
    rfl
  unfold makeFolders
  rcases hparts : p.parts.reverse with _ | ⟨name, outer⟩
  · have hp : p = ⟨p.root, []⟩ := by rw [← List.reverse_eq_nil_iff.1 hparts]
    rw [makeFoldersUpward, ← hp, run_tryCatch, hexists]
    exact hunless
  · have hp : p = ⟨p.root, (name :: outer).reverse⟩ := by rw [← hparts, List.reverse_reverse]
    rw [makeFoldersUpward, ← hp, run_tryCatch, hexists]
    dsimp only
    rw [if_neg (by decide)]
    exact hunless

theorem write_there {p : Path} {t : FileTree} {l : Location} (data : List UInt8)
    (hlocate : t.locate p = .ok l) (hfolder : t.isFolderAt l = false) :
    (write p data).run t = (.ok ⟨⟩, t.setFile l data) := by
  unfold write
  rw [run_bind_of_ok (locate_run hlocate), run_bind_of_ok (run_get t), hfolder]
  rfl

theorem makeFolder_keeps (p : Path) : Keeps SameFiles (makeFolder p) := by
  intro t
  unfold makeFolder
  rw [run_bind]
  rcases h : (locate p).run t with ⟨e | l, t'⟩
  · exact (locate_keeps p).of_run h
  · obtain ⟨-, rfl⟩ := locate_ok h
    dsimp only
    rw [run_bind, run_get]
    dsimp only
    split_ifs
    · exact refl_of SameFiles _
    · exact ⟨rfl, rfl, fun _ => rfl⟩

theorem unlessFolder_keeps (p : Path) (e : FileError) : Keeps SameFiles (unlessFolder p e) := by
  refine Keeps.get.bind fun t => ?_
  split
  · exact .pure _
  · exact .throw _

theorem makeFoldersUpward_keeps (root : Nat) (names : List String) :
    Keeps SameFiles (makeFoldersUpward root names) := by
  induction names with
  | nil => exact (makeFolder_keeps _).tryCatch fun _ => unlessFolder_keeps _ _
  | cons name outer ih =>
    refine (makeFolder_keeps _).tryCatch fun e => ?_
    split
    · exact ih.bind fun _ => (makeFolder_keeps _).tryCatch fun _ => unlessFolder_keeps _ _
    · exact unlessFolder_keeps _ _

theorem makeFolders_keeps (p : Path) : Keeps SameFiles (makeFolders p) :=
  makeFoldersUpward_keeps _ _

theorem write_unchanged {p : Path} {data : List UInt8} {t t' : FileTree} {e : FileError}
    (h : (write p data).run t = (.error e, t')) : t' = t := by
  rcases run_bind_error h with hl | ⟨l, t₁, hl, hr⟩
  · exact locate_error hl
  · obtain ⟨-, rfl⟩ := locate_ok hl
    rw [run_bind, run_get] at hr
    dsimp only at hr
    split_ifs at hr
    · cases hr
      rfl
    · cases hr

theorem write_error {p : Path} {data : List UInt8} {t t' : FileTree} {e : FileError}
    (h : (write p data).run t = (.error e, t')) : SameFiles t t' :=
  write_unchanged h ▸ refl_of SameFiles t'

/-- A file is written where its path leads, if no folder stands there. -/
theorem write_place {p : Path} {data : List UInt8} {t t' : FileTree}
    (h : (write p data).run t = (.ok ⟨⟩, t')) :
    ∃ l, t.locate p = .ok l ∧ t.isFolderAt l = false ∧ t' = t.setFile l data := by
  obtain ⟨l, t₁, hl, hr⟩ := run_bind_ok h
  obtain ⟨hlocate, rfl⟩ := locate_ok hl
  rw [run_bind, run_get] at hr
  dsimp only at hr
  split_ifs at hr with hfolder
  · cases hr
  · cases hr
    exact ⟨l, hlocate, Bool.eq_false_iff.2 hfolder, rfl⟩

theorem write_ok {p : Path} {data : List UInt8} {t t' : FileTree}
    (h : (write p data).run t = (.ok ⟨⟩, t')) : t' = t.setFile (t.resolve p) data := by
  obtain ⟨l, hlocate, -, rfl⟩ := write_place h
  rw [resolve_of_locate hlocate]

/-- A file that was just written can be read. -/
theorem read_written {p : Path} {data : List UInt8} {t t' : FileTree}
    (h : (write p data).run t = (.ok ⟨⟩, t')) : t'.read? p = .ok data := by
  obtain ⟨l, hlocate, hfolder, rfl⟩ := write_place h
  unfold read?
  rw [locate_setFile hlocate]
  simp only [isFolderAt_setFile, hfolder, Bool.false_eq_true, if_false, file?_setFile, if_true]

theorem delete_unchanged {p : Path} {t t' : FileTree} {e : FileError}
    (h : (delete p).run t = (.error e, t')) : t' = t := by
  unfold delete at h
  rw [run_bind, run_get] at h
  dsimp only at h
  split_ifs at h
  · cases h
    rfl
  · rcases run_bind_error h with hl | ⟨l, t₁, hl, hr⟩
    · exact locate_error hl
    · obtain ⟨-, rfl⟩ := locate_ok hl
      rw [run_bind, run_get] at hr
      dsimp only at hr
      split_ifs at hr <;> cases hr <;> rfl

theorem delete_error {p : Path} {t t' : FileTree} {e : FileError}
    (h : (delete p).run t = (.error e, t')) : SameFiles t t' :=
  delete_unchanged h ▸ refl_of SameFiles t'

theorem delete_ok {p : Path} {t t' : FileTree} (h : (delete p).run t = (.ok ⟨⟩, t')) :
    t' = t.removeFile (t.resolve p) := by
  unfold delete at h
  rw [run_bind, run_get] at h
  dsimp only at h
  split_ifs at h
  · cases h
  · obtain ⟨l, t₁, hl, hr⟩ := run_bind_ok h
    obtain ⟨hlocate, rfl⟩ := locate_ok hl
    rw [run_bind, run_get] at hr
    dsimp only at hr
    split_ifs at hr <;> cases hr
    rw [resolve_of_locate hlocate]

/-- A file that was just written can be deleted, unless it is locked. -/
theorem delete_written {p : Path} {data : List UInt8} {t t' : FileTree}
    (h : (write p data).run t = (.ok ⟨⟩, t')) :
    (delete p).run t' =
      if p ∈ t'.locked then (.error .locked, t') else (.ok ⟨⟩, t'.removeFile (t'.resolve p)) := by
  obtain ⟨l, hlocate, hfolder, rfl⟩ := write_place h
  have hagain : (locate p).run (t.setFile l data) = (.ok l, t.setFile l data) :=
    locate_run (locate_setFile hlocate)
  have hresolve : (t.setFile l data).resolve p = l := resolve_of_locate (locate_setFile hlocate)
  unfold delete
  rw [run_bind, run_get]
  dsimp only
  by_cases hlocked : p ∈ t.locked
  · simp [hlocked, run_throw]
  · simp [hlocked, hfolder, run_bind, hagain, run_get, file?_setFile, run_set, hresolve]

end Filing

end ModelContracts
