import ModelContracts.Text.Pieces

/-! Identities of classes, and the well-known ones. -/

namespace ModelContracts

/-- A class is known by the module that declares it and its qualified name there. The generation
tells apart the classes that a generated module declares each time it is loaded; it is zero for
all others. -/
structure ClassId where
  moduleName : String
  qualName : String
  generation : Nat := 0
deriving DecidableEq, Repr, Inhabited

namespace ClassId

def simpleName (c : ClassId) : String := Text.lastPiece '.' c.qualName

/-- Module and qualified name joined by a dot: the name that identity markers record. -/
def fullName (c : ClassId) : String := c.moduleName ++ "." ++ c.qualName

/-- The name inside type expressions: classes of the builtin module go by their own name. -/
def dottedName (c : ClassId) : String :=
  if c.moduleName = "builtins" then c.qualName else c.fullName

def builtin (name : String) : ClassId := ⟨"builtins", name, 0⟩
def object : ClassId := builtin "object"
def noneType : ClassId := builtin "NoneType"
def bool : ClassId := builtin "bool"
def int : ClassId := builtin "int"
def float : ClassId := builtin "float"
def complex : ClassId := builtin "complex"
def str : ClassId := builtin "str"
def bytes : ClassId := builtin "bytes"
def bytearray : ClassId := builtin "bytearray"
def list : ClassId := builtin "list"
def tuple : ClassId := builtin "tuple"
def dict : ClassId := builtin "dict"
def type : ClassId := builtin "type"
def any : ClassId := ⟨"typing", "Any", 0⟩
def decimal : ClassId := ⟨"decimal", "Decimal", 0⟩
def fraction : ClassId := ⟨"fractions", "Fraction", 0⟩
def uuid : ClassId := ⟨"uuid", "UUID", 0⟩
def datetime : ClassId := ⟨"datetime", "datetime", 0⟩
def date : ClassId := ⟨"datetime", "date", 0⟩
def time : ClassId := ⟨"datetime", "time", 0⟩
def timedelta : ClassId := ⟨"datetime", "timedelta", 0⟩
def enum : ClassId := ⟨"enum", "Enum", 0⟩
def intEnum : ClassId := ⟨"enum", "IntEnum", 0⟩
def strEnum : ClassId := ⟨"enum", "StrEnum", 0⟩
def flag : ClassId := ⟨"enum", "Flag", 0⟩
def intFlag : ClassId := ⟨"enum", "IntFlag", 0⟩
def reprEnum : ClassId := ⟨"enum", "ReprEnum", 0⟩
def generic : ClassId := ⟨"typing", "Generic", 0⟩
def abstract (name : String) : ClassId := ⟨"collections.abc", name, 0⟩
def iterable : ClassId := abstract "Iterable"
def callable : ClassId := abstract "Callable"

def marker (name : String) : ClassId := ⟨"modelgen.markers", name, 0⟩
def refreshMode : ClassId := marker "RefreshMode"
def modelNode : ClassId := ⟨"modelgen.contracts", "ModelNode", 0⟩
def modelNodeEnabled : ClassId := ⟨"modelgen.contracts", "ModelNodeEnabled", 0⟩
def option (name : String) : ClassId := ⟨"modelgen.options", name, 0⟩

end ClassId

end ModelContracts
