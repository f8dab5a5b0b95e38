import ModelContracts.Build.Workspace
import ModelContracts.Config.File
import ModelContracts.Config.Merge

/-!
Settings in layers: the defaults, the settings file, the environment, and what the caller gives. A
later layer takes precedence over those before it.
-/

namespace ModelContracts

namespace Settings

/-- The settings of a file: the mapping in its section if it has one, otherwise all of it. -/
def sectionOf (entries : Entries) : Entries :=
  match entries.find? (.text "build") with
  | some (.dict inner) => inner
  | _ => entries

def entries (s : Settings) : Entries := s.values.map fun (name, v) => (.text name, v)

/-- The settings of the workspace. A file that is named must exist; the standard one need not. -/
def fromWorkspace (t : FileTree) (w : Workspace) (p : Option Path) : Except ConfigError Entries :=
  match p with
  | some p => sectionOf <$> readConfig t p
  | none =>
    let p := w.settingsFile t
    if t.exists? p then sectionOf <$> readConfig t p else .ok []

def layers (workspace environment given : Entries) : Entries :=
  mergeEntries (mergeEntries (mergeEntries (entries {}) workspace) environment) given

def named : Entries → Except ConfigError (List (String × Value))
  | [] => .ok []
  | (.text name, v) :: rest => do return (name, v) :: (← named rest)
  | _ :: _ => .error .notNamed

def ofEntries (entries : Entries) : Except ConfigError Settings := do
  (validate (← named entries)).mapError .invalid

def load (t : FileTree) (w : Workspace) (p : Option Path) (env : Environment) (given : Entries) :
    Except ConfigError Settings := do
  let workspace ← fromWorkspace t w p
  let environment ← env.settings.mapError .notFlag
  ofEntries (layers workspace environment given)

end Settings

end ModelContracts
