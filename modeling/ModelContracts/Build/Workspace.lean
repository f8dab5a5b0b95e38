import ModelContracts.File.Tree

/-!
Where generated files are kept: a workspace folder with the settings file, and below it or below a
base folder of the caller's one folder of artifacts for each version.
-/

namespace ModelContracts

/-- The workspace: the one that was set, or the standard one in the working folder. -/
structure Workspace where
  folder? : Option Path := none

namespace Workspace

def folder (w : Workspace) (t : FileTree) : Path :=
  w.folder?.getD ⟨1, t.home ++ [".modelgen"]⟩

def settingsFile (w : Workspace) (t : FileTree) : Path := (w.folder t).child "config.yaml"

def artifacts (w : Workspace) (t : FileTree) (base : Option Path) : Path :=
  base.getD ((w.folder t).child "artifacts")

def versionFolder (w : Workspace) (t : FileTree) (version : String) (base : Option Path) : Path :=
  (w.artifacts t base).child version

def makeVersionFolder (w : Workspace) (version : String) (base : Option Path) : Filing Path := do
  let p := w.versionFolder (← get) version base
  Filing.makeFolders p
  return p

def fileName (name : String) : String := if Text.endsWith ".py" name then name else name ++ ".py"

/-- The artifact of a name; the folder of its version is made. -/
def artifact (w : Workspace) (name version : String) (base : Option Path) : Filing Path := do
  return (← w.makeVersionFolder version base).child (fileName name)

end Workspace

end ModelContracts
