import ModelContracts.Config.Environment
import ModelContracts.Config.Settings
import ModelContracts.Document.Meaning
import ModelContracts.File.Head
import ModelContracts.File.Tree

/-!
Reading of a settings file, which holds a mapping. A file that says nothing is an empty mapping.
-/

namespace ModelContracts

inductive ConfigError where
  | notFound (p : Path)
  | isFolder (p : Path)
  | malformed (p : Path)
  | notMapping (p : Path)
  | notFlag (f : FlagFault)
  | invalid (details : List Settings.Detail)
  /-- The file is no text. -/
  | undecodable
  /-- A value in the file stands for nothing. -/
  | noValue (f : Document.Fault)
  /-- A setting is not named by a text. -/
  | notNamed
deriving DecidableEq, Repr

namespace ConfigError

/-- Whether the error is one that tells of the configuration; the others come from below. -/
def isReported : ConfigError → Bool
  | .undecodable | .noValue _ | .notNamed => false
  | _ => true

def inFile (message : String) (p : Path) : String := message ++ " (file: " ++ p.text ++ ")"

/-- The text of an error; what a library says about a faulty file or value is left out. -/
def message? : ConfigError → Option String
  | .notFound p => some (inFile "Config file not found" p)
  | .isFolder p => some (inFile "Config path is a directory, not a file" p)
  | .malformed _ => some "Invalid YAML syntax"
  | .notMapping p => some (inFile "Config root must be a mapping (dict)" p)
  | .notFlag f => some f.message
  | .invalid _ => some "Invalid build settings"
  | _ => none

end ConfigError

def readConfig (t : FileTree) (p : Path) : Except ConfigError Entries :=
  if !t.exists? p then .error (.notFound p)
  else match t.read? p with
    | .error _ => .error (.isFolder p)
    | .ok data => match fileText data with
      | none => .error .undecodable
      | some text => match Document.read text with
        | .error .malformed => .error (.malformed p)
        | .error f => .error (.noValue f)
        | .ok (.dict entries) => .ok entries
        | .ok v => if v.truthy then .error (.notMapping p) else .ok []

end ModelContracts
