import ModelContracts.Contract.Source
import ModelContracts.File.Head
import ModelContracts.File.Tree
import ModelContracts.Text.Blank

/-!
The version stamp of a source: a line that sets the version name to a text without quotes. Only the
start of a file is searched, and the file is not executed.
-/

namespace ModelContracts

namespace Stamp

def isQuote (c : Char) : Bool := c = '\"' || c = '\''

/-- The text in quotes at the start: no quote of either kind stands in it. -/
def quoted? : List Char → Option (List Char)
  | [] => none
  | q :: rest =>
    if isQuote q then
      let inner := rest.takeWhile (!isQuote ·)
      if (rest.drop inner.length).head? = some q then some inner else none
    else none

def at? (cs : List Char) : Option (List Char) := do
  let rest := (← Text.after? versionName.toList cs).dropWhile Text.isBlank
  match rest with
  | '=' :: rest => quoted? (rest.dropWhile Text.isBlank)
  | _ => none

/-- The first version that is set at the start of a line; `lineStart` tells whether `cs` starts
one. -/
def find? (lineStart : Bool) (cs : List Char) : Option (List Char) :=
  match if lineStart then at? cs else none with
  | some v => some v
  | none => match cs with
    | [] => none
    | c :: rest => find? (c = '\n') rest
termination_by structural cs

def window : Nat := 4096

def portion : Nat := 8192

def ofData? (data : List UInt8) : Option String :=
  ((fileHead window portion data).bind (find? true)).map String.ofList

def ofFile? (t : FileTree) (p : Path) : Option String :=
  match t.read? p with
  | .ok data => ofData? data
  | .error _ => none

def isMatch (t : FileTree) (p : Path) (version : String) : Bool := ofFile? t p = some version

end Stamp

end ModelContracts
