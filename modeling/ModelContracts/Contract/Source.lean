import ModelContracts.Contract.Basic
import ModelContracts.Text.Quoted

/-!
The source of a module of contracts. The version stamp stands above the imports, so that it is found
near the start of the file. A read-only member hides the name of the decorator when it has that
name itself; such a class decorates through an alias of the builtin module.
-/

namespace ModelContracts

def versionName : String := "__generator_version__"

def builtinsAlias : String := "_builtins"

def indent : String := "    "

namespace Member

def annotatedType (m : Member) (annotatedText : String) : String :=
  if m.annotations.isEmpty then m.typeText
  else annotatedText ++ "[" ++ m.typeText ++ ", " ++ Text.commaList m.annotations ++ "]"

def lines (m : Member) (annotatedText decorator : String) : List String :=
  let type := m.annotatedType annotatedText
  if m.writable then [indent ++ m.name ++ ": " ++ type]
  else ["", indent ++ "@" ++ decorator, indent ++ "def " ++ m.name ++ "(self) -> " ++ type ++ ": ..."]

end Member

namespace Contract

/-- Whether a read-only member has the name of the decorator. -/
def hidesDecorator (c : Contract) : Bool :=
  c.members.any fun m => !m.writable && m.name = "property"

def decorator (c : Contract) : String :=
  if c.hidesDecorator then builtinsAlias ++ ".property" else "property"

def classLine (c : Contract) : String := "class " ++ c.name ++ "(" ++ c.baseText ++ "):"

def bodyLines (c : Contract) (annotatedText : String) : List String :=
  if c.members.isEmpty then [indent ++ "pass"]
  else c.members.flatMap fun m => m.lines annotatedText c.decorator

def lines (c : Contract) (annotatedText : String) : List String :=
  c.header ++ c.classLine :: c.bodyLines annotatedText

end Contract

namespace Blueprint

def stampLine (version : String) : String := versionName ++ " = " ++ Text.quote version

def headLines (b : Blueprint) : List String :=
  ["# Generated by modelgen. Do not edit.", "from __future__ import annotations", "",
    stampLine b.version, ""]

def importBlock (b : Blueprint) : List String :=
  if b.contracts.any (·.hidesDecorator) then
    b.importLines ++ ["import builtins as " ++ builtinsAlias]
  else b.importLines

def contractLines (b : Blueprint) : List String :=
  b.contracts.flatMap fun c => "" :: "" :: c.lines b.annotatedText

def source (b : Blueprint) : String :=
  String.intercalate "\n" (b.headLines ++ b.importBlock ++ b.contractLines) ++ "\n"

end Blueprint

end ModelContracts
