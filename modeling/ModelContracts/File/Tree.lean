import ModelContracts.File.Path
import ModelContracts.Text.Order
import ModelContracts.World.Basic

/-!
A tree of files and folders. A path is followed part by part from the working folder; every part but
the last must be a folder, and double dots lead one folder up. Operations on the tree fail for a
stated cause and keep what they changed before.
-/

namespace ModelContracts

/-- A place in the tree: the names on the way from the root. -/
abbrev Location := List String

inductive FileError where
  | notFound
  | notFolder
  | isFolder
  | exists
  /-- The file is locked and cannot be deleted. -/
  | locked
  /-- A path that names no entry of a folder cannot be deleted by it. -/
  | noName
deriving DecidableEq, Repr

def FileError.text (shown : String) : FileError → String
  | .locked => "locked"
  | .notFound => "[Errno 2] No such file or directory: " ++ shown
  | .notFolder => "[Errno 20] Not a directory: " ++ shown
  | .isFolder => "[Errno 21] Is a directory: " ++ shown
  | .exists => "[Errno 17] File exists: " ++ shown
  | .noName => "[Errno 22] Invalid argument: " ++ shown

structure FileTree where
  /-- The working folder, from which relative paths start. -/
  home : Location := []
  files : List (Location × List UInt8) := []
  /-- The folders besides the working folder and those around it. -/
  folders : List Location := []
  locked : List Path := []

abbrev Filing := ExceptT FileError (StateM FileTree)

namespace FileTree

variable (t : FileTree)

def file? (l : Location) : Option (List UInt8) := t.files.lookup l

def isFolderAt (l : Location) : Bool := l.isPrefixOf t.home || t.folders.contains l

def enter (l : Location) (name : String) : Except FileError Location :=
  if name = ".." then .ok l.dropLast
  else if t.isFolderAt (l ++ [name]) then .ok (l ++ [name])
  else if (t.file? (l ++ [name])).isSome then .error .notFolder
  else .error .notFound

/-- The place that names lead to from a folder; there may be nothing at it yet. -/
def locateFrom : Location → List String → Except FileError Location
  | l, [] => .ok l
  | l, [name] => .ok (if name = ".." then l.dropLast else l ++ [name])
  | l, name :: rest => (t.enter l name).bind fun l => locateFrom l rest

def start (p : Path) : Location := if p.root = 0 then t.home else []

def locate (p : Path) : Except FileError Location := t.locateFrom (t.start p) p.parts

/-- The place that a path names when every part on the way is taken for a folder. -/
def resolve (p : Path) : Location :=
  p.parts.foldl (fun l name => if name = ".." then l.dropLast else l ++ [name]) (t.start p)

def isFile (p : Path) : Bool :=
  match t.locate p with
  | .ok l => (t.file? l).isSome
  | .error _ => false

def isFolder (p : Path) : Bool :=
  match t.locate p with
  | .ok l => t.isFolderAt l
  | .error _ => false

def exists? (p : Path) : Bool := t.isFile p || t.isFolder p

def read? (p : Path) : Except FileError (List UInt8) :=
  match t.locate p with
  | .error e => .error e
  | .ok l =>
    if t.isFolderAt l then .error .isFolder
    else match t.file? l with
      | some data => .ok data
      | none => .error .notFound

def listing : List String :=
  Text.sorted <| t.files.filterMap fun (l, _) =>
    if t.home.isPrefixOf l then some (String.intercalate "/" (l.drop t.home.length)) else none

def setFile (l : Location) (data : List UInt8) : FileTree :=
  { t with files := setEntry l data t.files }

def removeFile (l : Location) : FileTree :=
  { t with files := t.files.filter fun f => f.1 ≠ l }

theorem file?_setFile (l k : Location) (data : List UInt8) :
    (t.setFile l data).file? k = if k = l then some data else t.file? k :=
  lookup_setEntry l k data t.files

theorem file?_removeFile (l k : Location) :
    (t.removeFile l).file? k = if k = l then none else t.file? k := lookup_removed l k t.files

end FileTree

namespace Filing

def locate (p : Path) : Filing Location := do
  match (← get).locate p with
  | .ok l => return l
  | .error e => throw e

def write (p : Path) (data : List UInt8) : Filing Unit := do
  let l ← locate p
  if (← get).isFolderAt l then throw .isFolder
  modify (·.setFile l data)

def delete (p : Path) : Filing Unit := do
  if (← get).locked.contains p then throw .locked
  let l ← locate p
  let t ← get
  if t.isFolderAt l then throw .isFolder
  if (t.file? l).isNone then throw .notFound
  set (t.removeFile l)

/-- Deletes a folder with everything in it. What is in it goes even if the folder itself cannot be
deleted by this path: one without parts names no entry, and double dots at the end lead through a
folder that is gone by then. -/
def deleteFolder (p : Path) : Filing Unit := do
  let l ← locate p
  let t ← get
  if (t.file? l).isSome then throw .notFolder
  if !t.isFolderAt l then throw .notFound
  set { t with
    files := t.files.filter fun f => !l.isPrefixOf f.1
    folders := t.folders.filter fun f => !l.isPrefixOf f }
  if p.root = 0 && p.parts.isEmpty then throw .noName
  if p.name = ".." then throw .notFound

def makeFolder (p : Path) : Filing Unit := do
  let l ← locate p
  let t ← get
  if t.isFolderAt l || (t.file? l).isSome then throw .exists
  set { t with folders := t.folders ++ [l] }

def unlessFolder (p : Path) (e : FileError) : Filing Unit := do
  if (← get).isFolder p then return () else throw e

/-- Makes the folder of which the parts are given from the last to the first, and those around it. -/
def makeFoldersUpward (root : Nat) : List String → Filing Unit
  | [] => tryCatch (makeFolder ⟨root, []⟩) (unlessFolder ⟨root, []⟩)
  | name :: outer =>
    let p : Path := ⟨root, (name :: outer).reverse⟩
    tryCatch (makeFolder p) fun e => do
      if e = .notFound then
        makeFoldersUpward root outer
        tryCatch (makeFolder p) (unlessFolder p)
      else unlessFolder p e

/-- Makes a folder, and those around it, unless it exists. -/
def makeFolders (p : Path) : Filing Unit := makeFoldersUpward p.root p.parts.reverse

end Filing

end ModelContracts
