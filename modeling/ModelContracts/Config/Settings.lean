import ModelContracts.File.Path
import ModelContracts.Text.Blank
import ModelContracts.Text.Identifier
import ModelContracts.Text.Utf8
import ModelContracts.TypeExpr.Spelled

/-!
Build settings and their validation. A flag may be given as a truth value, as a number equal to zero
or one, or as a word; names that are no settings are refused. All faults are reported together.
-/

namespace ModelContracts

structure Settings where
  loadFromCache : Bool := false
  runtimeMode : Bool := true
  skipCleanup : Bool := false
  forceRebuild : Bool := false
  debuggerAttached : Bool := false
  externalEditor : Bool := false
  devMachine : Bool := false
  baseDir : Option Path := none
  namePrefix : String := "IModel"
deriving DecidableEq, Repr

def Settings.cleanupEnabled (s : Settings) : Bool :=
  (s.debuggerAttached || s.externalEditor) && !s.skipCleanup

inductive SettingFault where
  /-- A text, or a small number, that is no truth value. -/
  | unreadableFlag
  | notFlag
  | notText
  | undecodableText
  | emptyText
  | notIdentifier (text : String)
  | notPath
  | unknown
deriving DecidableEq, Repr

namespace SettingFault

def code : SettingFault → String
  | .unreadableFlag => "bool_parsing"
  | .notFlag => "bool_type"
  | .notText => "string_type"
  | .undecodableText => "string_unicode"
  | .emptyText => "string_too_short"
  | .notIdentifier _ => "value_error"
  | .notPath => "path_type"
  | .unknown => "extra_forbidden"

def message : SettingFault → String
  | .unreadableFlag => "Input should be a valid boolean, unable to interpret input"
  | .notFlag => "Input should be a valid boolean"
  | .notText => "Input should be a valid string"
  | .undecodableText =>
    "Input should be a valid string, unable to parse raw data as a unicode string"
  | .emptyText => "String should have at least 1 character"
  | .notIdentifier text =>
    "Value error, name_prefix must be a valid identifier, got " ++ Text.spell text
  | .notPath => "Input is not a valid path for <class 'pathlib.Path'>"
  | .unknown => "Extra inputs are not permitted"

end SettingFault

namespace Settings

/-! Values of the three kinds of settings. -/

def trueWords : List String := ["1", "on", "t", "true", "y", "yes"]

def falseWords : List String := ["0", "off", "f", "false", "n", "no"]

def flagWord (s : String) : Except SettingFault Bool :=
  let low := Text.lowerAscii s
  if trueWords.contains low then .ok true
  else if falseWords.contains low then .ok false
  else .error .unreadableFlag

/-- A whole number as a flag; what does not fit into sixty-four bits is not looked at. -/
def flagNumber (n : Int) : Except SettingFault Bool :=
  if n = 0 then .ok false
  else if n = 1 then .ok true
  else if -(Int.pow 2 63) ≤ n && n < Int.pow 2 63 then .error .unreadableFlag
  else .error .notFlag

def whole? : Value → Option Int
  | .complex .. | .member _ .plain _ _ | .member _ .text _ _ => none
  | v => match v.number? with
    | some (.ratio n d, _) => if d ≠ 0 && n % d = 0 then some (n / d) else none
    | _ => none

def flag (v : Value) : Except SettingFault Bool :=
  match v with
  | .bool b => .ok b
  | .bytes data => match Text.decodeUtf8 data with
    | some s => flagWord s
    | none => .error .unreadableFlag
  | v => match v.text? with
    | some s => flagWord s
    | none => match whole? v with
      | some n => flagNumber n
      | none => .error .notFlag

def identifier (s : String) : Except SettingFault String :=
  if s.isEmpty then .error .emptyText
  else if Text.isIdentifier s then .ok s
  else .error (.notIdentifier s)

def nameStart (v : Value) : Except SettingFault String :=
  match v with
  | .bytes data | .buffer data => match Text.decodeUtf8 data with
    | some s => identifier s
    | none => .error .undecodableText
  | v => match v.text? with
    | some s => identifier s
    | none => .error .notText

def folder (v : Value) : Except SettingFault (Option Path) :=
  match v with
  | .none => .ok none
  | v => match v.text? with
    | some s => .ok (some (Path.ofText s))
    | none => .error .notPath

/-! Validation. -/

/-- A fault and the name at which it was found. -/
structure Detail where
  name : String
  fault : SettingFault
deriving DecidableEq, Repr

def names : List String :=
  ["load_from_cache", "runtime_mode", "skip_cleanup", "force_rebuild", "debugger_attached",
    "external_editor", "dev_machine", "base_dir", "name_prefix"]

def values (s : Settings) : List (String × Value) :=
  names.zip
    [.bool s.loadFromCache, .bool s.runtimeMode, .bool s.skipCleanup, .bool s.forceRebuild,
      .bool s.debuggerAttached, .bool s.externalEditor, .bool s.devMachine,
      (s.baseDir.map fun p => Value.text p.text).getD .none, .text s.namePrefix]

theorem names_values (s : Settings) : s.values.map (·.1) = names := rfl

def assign (s : Settings) (name : String) (v : Value) : Except SettingFault Settings :=
  match name with
  | "load_from_cache" => (flag v).map fun b => { s with loadFromCache := b }
  | "runtime_mode" => (flag v).map fun b => { s with runtimeMode := b }
  | "skip_cleanup" => (flag v).map fun b => { s with skipCleanup := b }
  | "force_rebuild" => (flag v).map fun b => { s with forceRebuild := b }
  | "debugger_attached" => (flag v).map fun b => { s with debuggerAttached := b }
  | "external_editor" => (flag v).map fun b => { s with externalEditor := b }
  | "dev_machine" => (flag v).map fun b => { s with devMachine := b }
  | "base_dir" => (folder v).map fun p => { s with baseDir := p }
  | "name_prefix" => (nameStart v).map fun t => { s with namePrefix := t }
  | _ => .error .unknown

/-- Assigns what is given for a name, and notes the fault if there is one. -/
def assignGiven (given : List (String × Value)) (r : Settings × List Detail) (name : String) :
    Settings × List Detail :=
  match given.lookup name with
  | none => r
  | some v => match r.1.assign name v with
    | .ok s => (s, r.2)
    | .error fault => (r.1, r.2 ++ [⟨name, fault⟩])

/-- The settings that are given by name; otherwise every fault, those of settings in their order and
then the unknown names. -/
def validate (given : List (String × Value)) : Except (List Detail) Settings :=
  let (s, faults) := names.foldl (assignGiven given) ({}, [])
  let unknown := (given.map (·.1)).filter fun n => !names.contains n
  let details := faults ++ unknown.map (Detail.mk · .unknown)
  if details.isEmpty then .ok s else .error details

end Settings

end ModelContracts
