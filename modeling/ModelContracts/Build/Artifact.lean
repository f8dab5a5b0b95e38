import ModelContracts.File.Path
import ModelContracts.Text.Word

/-!
The names that follow from the path of an artifact: the stem in generated names, which is fit for an
identifier, and the name of the module.
-/

namespace ModelContracts

namespace Artifact

/-- The stem with every character that is no word character as an underscore, and one in front where
a name cannot start. -/
def stem (p : Path) : String :=
  let cs := p.stem.toList.map fun c => if Text.wordChars.contains c then c else '_'
  match cs with
  | [] => "_"
  | c :: _ => String.ofList (if Text.digitChars.contains c then '_' :: cs else cs)

def moduleName (p : Path) : String := "modelgen_generated_" ++ stem p

end Artifact

end ModelContracts
