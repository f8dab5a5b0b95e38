import Mathlib.Data.List.Basic
import ModelContracts.Proofs.Build.Touching

/-!
Paths that name one file in different ways. They lead to one folder, each in its own way, and go on with the
same names from there. Whatever is done with one of them can be done with the other, and changes the same
files and folders.
-/

namespace ModelContracts

namespace Text

/-- What stands before a mark does not count for an ending without the mark. -/
theorem isSuffixOf_append {mark : Char} {ending front back : List Char} (hmark : mark ∉ ending)
    (hfront : front = [] ∨ front.getLast? = some mark) :
    ending.isSuffixOf (front ++ back) = ending.isSuffixOf back := by
  rw [Bool.eq_iff_iff, List.isSuffixOf_iff_suffix, List.isSuffixOf_iff_suffix]
  constructor
  · intro h
    rcases List.suffix_or_suffix_of_suffix h (List.suffix_append front back) with hback | ⟨more, hmore⟩
    · exact hback
    · obtain ⟨before, hbefore⟩ := h
      rw [← hmore, ← List.append_assoc] at hbefore
      have hends : before ++ more = front := List.append_cancel_right hbefore
      rcases hfront with rfl | hlast
      · obtain ⟨-, rfl⟩ := List.append_eq_nil_iff.1 hends
        exact hmore ▸ List.suffix_refl back
      · rcases List.eq_nil_or_concat more with rfl | ⟨init, last, rfl⟩
        · exact hmore ▸ List.suffix_refl back
        · rw [← hends, List.concat_eq_append, ← List.append_assoc, List.getLast?_concat] at hlast
          refine (hmark ?_).elim
          rw [← hmore, Option.some.inj hlast, List.concat_eq_append]
          simp
  · exact fun h => h.trans (List.suffix_append front back)

end Text

namespace Path

theorem toList_intercalate {names : List String} (h : names ≠ []) :
    ∃ front, (String.intercalate "/" names).toList = front ++ (names.getLast?.getD "").toList ∧
      (front = [] ∨ front.getLast? = some '/') := by
  induction names with
  | nil => exact (h rfl).elim
  | cons name rest ih =>
    cases rest with
    | nil => exact ⟨[], by simp, Or.inl rfl⟩
    | cons next rest =>
      obtain ⟨front, hfront, hends⟩ := ih (List.cons_ne_nil next rest)
      refine ⟨name.toList ++ ['/'] ++ front, ?_, Or.inr ?_⟩
      · rw [String.intercalate_cons_cons, String.toList_append, String.toList_append, hfront,
          List.getLast?_cons_cons]
        simp
      · rcases hends with rfl | hends
        · rw [List.append_nil, List.getLast?_concat]
        · rw [List.getLast?_append, hends]
          rfl

/-- The text of a path ends with the name, before which there is nothing or a slash. -/
theorem toList_text {p : Path} (h : p.parts ≠ []) : ∃ front, p.text.toList = front ++ p.name.toList ∧
    (front = [] ∨ front.getLast? = some '/') := by
  obtain ⟨front, hfront, hends⟩ := toList_intercalate h
  have hparts : ¬ p.parts.isEmpty = true := by simpa using h
  unfold text
  dsimp only
  split_ifs with hroot
  · exact ⟨front, hfront, hends⟩
  · refine ⟨List.replicate p.root '/' ++ front, ?_, Or.inr ?_⟩
    · rw [String.toList_append, String.toList_ofList, hfront, List.append_assoc]
      rfl
    · rcases hends with rfl | hends
      · rw [List.append_nil, List.getLast?_replicate, if_neg hroot]
      · rw [List.getLast?_append, hends]
        rfl

theorem endsWith_text {p : Path} (h : p.parts ≠ []) {ending : String} (hslash : '/' ∉ ending.toList) :
    Text.endsWith ending p.text = Text.endsWith ending p.name := by
  obtain ⟨front, htext, hfront⟩ := toList_text h
  rw [Text.endsWith, htext, Text.isSuffixOf_append hslash hfront, Text.endsWith]

end Path

namespace FileTree

variable {t t' : FileTree} {k l m : Location} {names before rest : List String} {p q : Path}

/-! Following names from folder to folder. -/

theorem locateFrom_append (l : Location) (before : List String) (h : rest ≠ []) :
    t.locateFrom l (before ++ rest) = (before.foldlM t.enter l).bind fun k => t.locateFrom k rest := by
  induction before generalizing l with
  | nil => rfl
  | cons name names ih =>
    obtain ⟨next, more, hmore⟩ := List.exists_cons_of_ne_nil (List.append_ne_nil_of_right_ne_nil names h)
    rw [List.cons_append, hmore, locateFrom, ← hmore, List.foldlM_cons]
    · rcases t.enter l name with e | m
      · rfl
      · exact ih m
    · exact List.cons_ne_nil next more

/-- All folders around a place are there, and it is a folder itself. -/
def Inside (t : FileTree) (l : Location) : Prop := ∀ m, m <+: l → t.isFolderAt m = true

theorem inside_start (p : Path) : t.Inside (t.start p) := by
  intro m hm
  unfold start at hm
  refine Bool.or_eq_true_iff.2 (Or.inl (List.isPrefixOf_iff_prefix.2 ?_))
  split_ifs at hm
  · exact hm
  · rw [List.prefix_nil.1 hm]
    exact List.nil_prefix

theorem Inside.enter {name : String} (h : t.Inside l) (hk : t.enter l name = .ok k) : t.Inside k := by
  unfold FileTree.enter at hk
  split_ifs at hk with hup hfolder
  · cases hk
    exact fun m hm => h m (hm.trans (List.dropLast_prefix l))
  · cases hk
    intro m hm
    rcases List.prefix_concat_iff.1 hm with rfl | hm
    · exact hfolder
    · exact h m hm

theorem Inside.follow (h : t.Inside l) (hk : before.foldlM t.enter l = .ok k) : t.Inside k :=
  foldlM_ok (P := t.Inside) (fun _ _ _ hl hnext => hl.enter hnext) h hk

theorem enter_ok {name : String} (h : t.enter l name = .ok k) :
    k = if name = ".." then l.dropLast else l ++ [name] := by
  unfold enter at h
  split_ifs at h ⊢ <;> cases h <;> rfl

theorem locateFrom_follow (h : before.foldlM t.enter l = .ok k) : t.locateFrom l before = .ok k := by
  rcases List.eq_nil_or_concat before with rfl | ⟨init, name, rfl⟩
  · exact h
  · rw [List.concat_eq_append, List.foldlM_append] at h
    obtain ⟨m, hm, hname⟩ := except_bind_ok h
    rw [List.foldlM_cons] at hname
    obtain ⟨k', hk', hend⟩ := except_bind_ok hname
    cases hend
    rw [List.concat_eq_append, locateFrom_append l init (List.cons_ne_nil name []), hm, enter_ok hk']
    rfl

theorem Beside.follow (h : Beside k t t') (hl : before.foldlM t.enter l = .ok m) :
    before.foldlM t'.enter l = .ok m := by
  induction before generalizing l with
  | nil => exact hl
  | cons name names ih =>
    rw [List.foldlM_cons] at hl ⊢
    obtain ⟨next, hnext, hrest⟩ := except_bind_ok hl
    rw [enter_of_kept h.kept hnext]
    exact ih hrest

/-! Two ways to one folder. -/

/-- A path leads to a folder with all its names. -/
def Leads (t : FileTree) (p : Path) (k : Location) : Prop := p.parts.foldlM t.enter (t.start p) = .ok k

theorem Leads.locate (h : t.Leads p k) : t.locate p = .ok k := locateFrom_follow h

theorem Leads.isFolderAt (h : t.Leads p k) : t.isFolderAt k = true :=
  (inside_start p).follow h k (List.prefix_refl k)

theorem Leads.beside (h : t.Leads p k) (hbeside : Beside l t t') : t'.Leads p k := by
  have hstart : t'.start p = t.start p := by rw [start, hbeside.home, start]
  rw [Leads, hstart]
  exact hbeside.follow h

theorem Leads.locate_append {p : Path} (h : t.Leads p k) (hrest : rest ≠ []) :
    t.locate { p with parts := p.parts ++ rest } = t.locateFrom k rest := by
  unfold FileTree.locate
  rw [locateFrom_append _ _ hrest]
  have hfollow : p.parts.foldlM t.enter (t.start { p with parts := p.parts ++ rest }) = .ok k := h
  rw [hfollow]
  rfl

/-- Two paths for one file: they are one path, or they lead to one folder and go on with the same names
from there. -/
def OneFile (t : FileTree) (p q : Path) : Prop :=
  q = p ∨ ∃ a b k rest, rest ≠ [] ∧ t.Leads a k ∧ t.Leads b k ∧
    p = { a with parts := a.parts ++ rest } ∧ q = { b with parts := b.parts ++ rest }

theorem OneFile.beside (h : t.OneFile p q) (hbeside : Beside l t t') : t'.OneFile p q := by
  rcases h with rfl | ⟨a, b, k, rest, hrest, ha, hb, hp, hq⟩
  · exact Or.inl rfl
  · exact Or.inr ⟨a, b, k, rest, hrest, ha.beside hbeside, hb.beside hbeside, hp, hq⟩

theorem OneFile.locate (h : t.OneFile p q) : t.locate q = t.locate p := by
  rcases h with rfl | ⟨a, b, k, rest, hrest, ha, hb, rfl, rfl⟩
  · rfl
  · rw [ha.locate_append hrest, hb.locate_append hrest]

theorem OneFile.name (h : t.OneFile p q) : q.name = p.name := by
  rcases h with rfl | ⟨a, b, k, rest, hrest, -, -, rfl, rfl⟩
  · rfl
  · rw [Path.name, List.getLast?_append_of_ne_nil _ hrest, Path.name,
      List.getLast?_append_of_ne_nil _ hrest]

theorem OneFile.isFile (h : t.OneFile p q) : t.isFile q = t.isFile p := by
  rw [FileTree.isFile, h.locate, FileTree.isFile]

theorem OneFile.read? (h : t.OneFile p q) : t.read? q = t.read? p := by
  rw [FileTree.read?, h.locate, FileTree.read?]

/-- A path to a place that is no folder leads to the folder around it. -/
theorem leads_around (hp : t.locate p = .ok l) (hl : t.isFolderAt l = false) :
    ∃ a k name, t.Leads a k ∧ l = k ++ [name] ∧ p = { a with parts := a.parts ++ [name] } := by
  have hfolder {m : Location} (hm : t.Inside m) : t.isFolderAt m = true := hm m (List.prefix_refl m)
  unfold FileTree.locate at hp
  rcases List.eq_nil_or_concat p.parts with hparts | ⟨init, name, hparts⟩
  · rw [hparts] at hp
    cases hp
    rw [hfolder (inside_start p)] at hl
    cases hl
  · rw [hparts, List.concat_eq_append, locateFrom_append _ _ (List.cons_ne_nil name [])] at hp
    obtain ⟨k, hk, hend⟩ := except_bind_ok hp
    have hinside := (inside_start p).follow hk
    have hplace : l = if name = ".." then k.dropLast else k ++ [name] := (Except.ok.inj hend).symm
    split_ifs at hplace
    · rw [hplace, hinside _ (List.dropLast_prefix k)] at hl
      cases hl
    · refine ⟨⟨p.root, init⟩, k, name, hk, hplace, ?_⟩
      rw [← List.concat_eq_append, ← hparts]

/-- Two paths that lead to one place, which is no folder, are paths for one file. -/
theorem oneFile_of_locate (hp : t.locate p = .ok l) (hq : t.locate q = .ok l)
    (hl : t.isFolderAt l = false) : t.OneFile p q := by
  obtain ⟨a, k, name, ha, hplace, ha'⟩ := leads_around hp hl
  obtain ⟨b, k', name', hb, hplace', hb'⟩ := leads_around hq hl
  rw [hplace] at hplace'
  obtain ⟨rfl, hnames⟩ := List.append_inj' hplace' rfl
  cases hnames
  exact Or.inr ⟨a, b, k, [name], List.cons_ne_nil name [], ha, hb, ha', hb'⟩

end FileTree

namespace Filing

open FileTree

variable {t : FileTree} {p q : Path}

theorem locate_alike (h : t.locate q = t.locate p) : (locate q).run t = (locate p).run t := by
  unfold locate
  rw [run_bind_of_ok (run_get t), run_bind_of_ok (run_get t), h]

theorem write_alike (h : t.OneFile p q) (data : List UInt8) :
    (write q data).run t = (write p data).run t := by
  unfold write
  rw [run_bind, run_bind, locate_alike h.locate]

theorem delete_alike (h : t.OneFile p q) (hlocks : q ∈ t.locked ↔ p ∈ t.locked) :
    (delete q).run t = (delete p).run t := by
  have hlocked : t.locked.contains q = t.locked.contains p := by
    rw [Bool.eq_iff_iff, List.contains_iff_mem, List.contains_iff_mem, hlocks]
  unfold delete
  rw [run_bind_of_ok (run_get t), run_bind_of_ok (run_get t), hlocked]
  dsimp only
  split_ifs
  · rfl
  · rw [run_bind, run_bind, locate_alike h.locate]

theorem makeFolder_alike (h : t.locate q = t.locate p) : (makeFolder q).run t = (makeFolder p).run t := by
  unfold makeFolder
  rw [run_bind, run_bind, locate_alike h]

theorem unlessFolder_alike (h : t.locate q = t.locate p) (e : FileError) :
    (unlessFolder q e).run t = (unlessFolder p e).run t := by
  have hfolder : t.isFolder q = t.isFolder p := by rw [FileTree.isFolder, h, FileTree.isFolder]
  unfold unlessFolder
  rw [run_bind_of_ok (run_get t), run_bind_of_ok (run_get t), hfolder]

/-- Folders are made alike from one folder on. The names are told from the last to the first, as they are
gone through until a folder is there. -/
theorem makeFoldersUpward_alike {a b : Path} {k : Location} (names : List String) (ha : t.Leads a k)
    (hb : t.Leads b k) : (makeFoldersUpward b.root (names ++ b.parts.reverse)).run t =
      (makeFoldersUpward a.root (names ++ a.parts.reverse)).run t := by
  induction names generalizing t with
  | nil =>
    have hthere := makeFolders_there ha.locate ha.isFolderAt
    exact (makeFolders_there hb.locate hb.isFolderAt).trans hthere.symm
  | cons name names ih =>
    have hparts (c : Path) : (name :: (names ++ c.parts.reverse)).reverse =
        c.parts ++ (names.reverse ++ [name]) := by simp
    have hlocate {t : FileTree} (ha : t.Leads a k) (hb : t.Leads b k) :
        t.locate ⟨b.root, b.parts ++ (names.reverse ++ [name])⟩ =
          t.locate ⟨a.root, a.parts ++ (names.reverse ++ [name])⟩ := by
      have hrest : names.reverse ++ [name] ≠ [] := by simp
      exact (hb.locate_append hrest).trans (ha.locate_append hrest).symm
    rw [List.cons_append, List.cons_append, makeFoldersUpward, makeFoldersUpward, hparts a, hparts b,
      run_tryCatch, run_tryCatch, makeFolder_alike (hlocate ha hb)]
    rcases hfirst : (makeFolder ⟨a.root, a.parts ++ (names.reverse ++ [name])⟩).run t with ⟨e | _, t₁⟩
    · have hbeside := (makeFolder_around a _).of_run hfirst
      have ha₁ := ha.beside hbeside
      have hb₁ := hb.beside hbeside
      dsimp only
      split_ifs
      · -- The folders around are made first.
        rw [run_bind, run_bind, ih ha₁ hb₁]
        rcases houter : (makeFoldersUpward a.root (names ++ a.parts.reverse)).run t₁ with ⟨e' | _, t₂⟩
        · rfl
        · have hkept : Keeps (Around a) (makeFoldersUpward a.root (names ++ a.parts.reverse)) := by
            have hfolders := makeFolders_around a ⟨a.root, (names ++ a.parts.reverse).reverse⟩
            rwa [makeFolders, List.reverse_reverse] at hfolders
          have hbeside₂ := hkept.of_run houter
          have ha₂ := ha₁.beside hbeside₂
          have hb₂ := hb₁.beside hbeside₂
          dsimp only
          rw [run_tryCatch, run_tryCatch, makeFolder_alike (hlocate ha₂ hb₂)]
          rcases hagain : (makeFolder ⟨a.root, a.parts ++ (names.reverse ++ [name])⟩).run t₂ with ⟨e' | _, t₃⟩
          · have hbeside₃ := (makeFolder_around a _).of_run hagain
            exact unlessFolder_alike (hlocate (ha₂.beside hbeside₃) (hb₂.beside hbeside₃)) e'
          · rfl
      · exact unlessFolder_alike (hlocate ha₁ hb₁) e
    · rfl

theorem makeFolders_alike {a b : Path} {k : Location} (rest : List String) (ha : t.Leads a k)
    (hb : t.Leads b k) : (makeFolders { b with parts := b.parts ++ rest }).run t =
      (makeFolders { a with parts := a.parts ++ rest }).run t := by
  have hreverse (c : Path) : (c.parts ++ rest).reverse = rest.reverse ++ c.parts.reverse :=
    List.reverse_append
  unfold makeFolders
  rw [hreverse a, hreverse b]
  exact makeFoldersUpward_alike rest.reverse ha hb

theorem makeFolders_parent_alike (h : t.OneFile p q) :
    (makeFolders q.parent).run t = (makeFolders p.parent).run t := by
  rcases h with rfl | ⟨a, b, k, rest, hrest, ha, hb, rfl, rfl⟩
  · rfl
  have hparent (c : Path) : Path.parent { c with parts := c.parts ++ rest } =
      { c with parts := c.parts ++ rest.dropLast } := by
    rw [Path.parent, List.dropLast_append_of_ne_nil hrest]
  rw [hparent a, hparent b]
  exact makeFolders_alike rest.dropLast ha hb

end Filing

namespace Artifact

variable {p q : Path}

theorem stem_of_name (h : q.name = p.name) : stem q = stem p := by
  have hstem : q.stem = p.stem := congrArg Path.stemOf h
  unfold stem
  rw [hstem]

theorem moduleName_of_stem (h : stem q = stem p) : moduleName q = moduleName p :=
  congrArg ("modelgen_generated_" ++ ·) h

end Artifact

theorem Compilation.loader_of_oneFile {t : FileTree} {p q : Path} (h : t.OneFile p q) :
    loader q = loader p := by
  have hname := h.name
  rcases h with rfl | ⟨a, b, k, rest, hrest, -, -, hp, hq⟩
  · rfl
  have hp' : p.parts ≠ [] := by
    rw [hp]
    exact List.append_ne_nil_of_right_ne_nil _ hrest
  have hq' : q.parts ≠ [] := by
    rw [hq]
    exact List.append_ne_nil_of_right_ne_nil _ hrest
  have hends (ending : String) (hslash : '/' ∉ ending.toList) :
      Text.endsWith ending q.text = Text.endsWith ending p.text := by
    rw [Path.endsWith_text hq' hslash, Path.endsWith_text hp' hslash, hname]
  have hextension := hends ".so" (by decide)
  have hsource := hends ".py" (by decide)
  have hcompiled := hends ".pyc" (by decide)
  unfold loader
  rw [hextension, hsource, hcompiled]

end ModelContracts
