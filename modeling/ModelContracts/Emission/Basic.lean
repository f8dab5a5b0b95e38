import ModelContracts.Log
import ModelContracts.Reference.Rendering
import ModelContracts.World.Import

/-!
The state in which texts of contracts are produced: the ledger of names, the memories of converter
lookups and of formed types, and the log. An operation that fails keeps what it recorded before it failed.
-/

namespace ModelContracts

inductive EmissionError where
  /-- A type that has no text. -/
  | unrenderable (t : TypeExpr)
  /-- A value for which there is no literal. -/
  | unsupported (v : Value)
  /-- Two classes for which the same contract name is generated. -/
  | nameConflict (name : String) (first second : ClassId)
  | form (e : FormError)
  | lookup (e : LookupError)
  /-- A marker field that does not hold what its kind is about. -/
  | malformedField (v : Value)
  /-- A field that cannot be written as a quoted text. -/
  | unquotable (v : Value)
  | converterImport (e : ImportError)
  /-- A name in an annotation that leads nowhere. -/
  | unresolvedName (name : String)
  /-- Contracts nested deeper than the bound that was given. -/
  | tooDeep

namespace EmissionError

def message? (w : World) : EmissionError → Option String
  | .unrenderable t => some ("Cannot render a reference to " ++ t.spelled w.sort)
  | .unsupported v =>
    some ("Unsupported literal value " ++ v.spelled w.sort ++ " of type " ++ v.className)
  | .nameConflict name first second =>
    some ("Generated name " ++ name ++ " is used by both " ++ first.fullName ++ " and " ++
      second.fullName)
  | _ => none

end EmissionError

/-- The lookups of converters by name, the least recent first. -/
abbrev ConverterMemory := List (String × Option ClassId)

structure Emission where
  ledger : Ledger
  memory : ConverterMemory := []
  formed : FormMemory := []
  log : List LogRecord := []

abbrev Emitting := ExceptT EmissionError (StateM Emission)

namespace Emitting

def recording {α : Type} (r : Recording α) : Emitting α := fun s =>
  match r.run s.ledger with
  | (.ok a, l) => (.ok a, { s with ledger := l })
  | (.error e, l) => (.error (.unrenderable e.type), { s with ledger := l })

def type (w : World) (t : TypeExpr) : Emitting String := recording (Recording.type w t)

def cls (w : World) (c : ClassId) : Emitting String := recording (Recording.className w c)

def nullable (t : TypeExpr) : Emitting TypeExpr := fun s =>
  match s.formed.nullable? t with
  | .ok (u, formed) => (.ok u, { s with formed := formed })
  | .error e => (.error (.form e), s)

def log (r : LogRecord) : Emitting Unit := modify fun s => { s with log := s.log ++ [r] }

/-- Keeps a name for a contract; a name that is bound already is shadowed, which is logged. -/
def reserve (name : String) : Emitting Unit := do
  if (← get).ledger.isBound name then
    log (.reference .warning ("Generated name " ++ name ++ " shadows an imported type"))
  modify fun s => { s with ledger := s.ledger.reserve name }

end Emitting

def Emission.start (w : World) (host : ClassId) : Emission :=
  { ledger := Ledger.start w host, formed := w.formed }

end ModelContracts
