import ModelContracts.World.Import

/-!
Classes named on the command line: a module, a colon, and the names that lead from it to the class.
-/

namespace ModelContracts

inductive TargetError where
  /-- The text does not name a module and something in it. -/
  | malformed (spec : String)
  | notImported (moduleName : String) (e : ImportError)
  | noAttribute (moduleName path : String)
  | notClass (spec : String)
  /-- The module is named relative to nothing. -/
  | relative
deriving DecidableEq, Repr

/-- The text of an error, except for the one that is no fault of the parameter alone. -/
def TargetError.message? : TargetError → Option String
  | .malformed spec => some ("Expected module:Class, got " ++ Text.spell spec)
  | .notImported name e => some ("Cannot import " ++ Text.spell name ++ ": " ++ e.message)
  | .noAttribute name path => some (Text.spell name ++ " has no attribute " ++ Text.spell path)
  | .notClass spec => some (Text.spell spec ++ " is not a class")
  | .relative => none

namespace World

variable (w : World)

def target? (spec : String) : Except TargetError ClassId :=
  match Text.cut ':' spec with
  | none => .error (.malformed spec)
  | some (moduleName, path) =>
    if moduleName.isEmpty || path.isEmpty then .error (.malformed spec)
    else match w.import? moduleName with
      | .error .relative => .error .relative
      | .error e => .error (.notImported moduleName e)
      | .ok name => match w.walk? (.module name) (Text.split '.' path) with
        | none => .error (.noAttribute moduleName path)
        | some e => match e.class? with
          | some c => .ok c
          | none => .error (.notClass spec)

end World

end ModelContracts
