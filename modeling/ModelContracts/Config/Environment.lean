import ModelContracts.Text.Blank
import ModelContracts.Text.Spelled
import ModelContracts.TypeExpr.Entries

/-!
Settings that environment variables override. All but the base folder are flags, which are read from
a word in any case with blanks around it.
-/

namespace ModelContracts

abbrev Environment := List (String × String)

/-- A variable that should hold a flag and does not. -/
structure FlagFault where
  name : String
  raw : String
deriving DecidableEq, Repr

def FlagFault.message (f : FlagFault) : String :=
  f.name ++ " must be a boolean, got " ++ Text.spell f.raw

namespace Environment

/-- The variables in the order in which they are read, and the settings that they override. -/
def overrides : List (String × String) :=
  [("MODELGEN_DEV_MACHINE", "dev_machine"), ("MODELGEN_RUNTIME_MODE", "runtime_mode"),
    ("MODELGEN_SKIP_CLEANUP", "skip_cleanup"), ("MODELGEN_LOAD_FROM_CACHE", "load_from_cache"),
    ("MODELGEN_BASE_DIR", "base_dir")]

def trueWords : List String := ["1", "true", "yes", "on"]

def falseWords : List String := ["0", "false", "no", "off", ""]

def flag? (raw : String) : Option Bool :=
  let word := Text.lowerAscii (Text.trimmed raw)
  if trueWords.contains word then some true
  else if falseWords.contains word then some false
  else none

def settingOf (name setting raw : String) : Except FlagFault Value :=
  if setting = "base_dir" then .ok (.text raw)
  else match flag? raw with
    | some b => .ok (.bool b)
    | none => .error ⟨name, raw⟩

def settingsOf (env : Environment) : List (String × String) → Except FlagFault Entries
  | [] => .ok []
  | (name, setting) :: rest =>
    match env.lookup name with
    | none => settingsOf env rest
    | some raw => do
      let v ← settingOf name setting raw
      return (.text setting, v) :: (← settingsOf env rest)

def settings (env : Environment) : Except FlagFault Entries := settingsOf env overrides

end Environment

end ModelContracts
