/-!
The tokens of a document, and what can be wrong with it.
-/

namespace ModelContracts.Document

/-- Why a document cannot be read. Most faults are of its form; the others come up where a text that
has the right form stands for no value. -/
inductive Fault where
  | malformed
  /-- An escape for a character beyond the last one. -/
  | noCharacter
  /-- An escape for a number that is too large to be looked up. -/
  | hugeCharacter
  /-- A word that is no truth value. -/
  | noFlag
  | emptyNumber
  | noNumber
  /-- A text that is no date. -/
  | noDate
  /-- A date that is in no calendar. -/
  | wrongDate
deriving DecidableEq, Repr

inductive Directive where
  | version (major : Nat)
  | tag (handle start : String)
  | other
deriving DecidableEq, Repr

inductive Token where
  | directive (d : Directive)
  | documentStart
  | documentEnd
  | blockSequence
  | blockMapping
  | blockEnd
  | openSequence
  | closeSequence
  | openMapping
  | closeMapping
  | comma
  | entry
  | key
  | value
  | alias (name : String)
  | anchor (name : String)
  /-- A tag, with the handle that its start stands for. -/
  | tag (handle : Option String) (suffix : String)
  /-- `plain` tells the text without quotes from the others. -/
  | scalar (text : String) (plain : Bool)
deriving DecidableEq, Repr

end ModelContracts.Document
