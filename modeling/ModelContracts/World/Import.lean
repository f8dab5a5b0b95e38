import ModelContracts.World.Declaration

/-!
Importing modules by name and following names from one thing to the next. A name resolves when the
module of that name exists; otherwise the first missing part of it is reported.
-/

namespace ModelContracts

inductive ImportError where
  /-- A name that starts with a dot has no place to start from. -/
  | relative
  | emptyName
  /-- `missing` does not exist; `within` is the module around it, when that is no package. -/
  | missing (name : String) (within : Option String)
deriving DecidableEq, Repr

def ImportError.message : ImportError → String
  | .relative => "the 'package' argument is required to perform a relative import"
  | .emptyName => "Empty module name"
  | .missing name none => "No module named " ++ Text.spell name
  | .missing name (some around) =>
    "No module named " ++ Text.spell name ++ "; " ++ Text.spell around ++ " is not a package"

namespace World

variable (w : World)

def hasModule (name : String) : Bool := (w.module? name).isSome || w.importable.contains name

/-- The first of the names that is no module, with the one before it. -/
def firstMissing : Option String → List String → Option (String × Option String)
  | _, [] => none
  | before, name :: rest =>
    if w.hasModule name then firstMissing (some name) rest else some (name, before)

def import? (name : String) : Except ImportError String :=
  if name.isEmpty then .error .emptyName
  else if Text.startsWith "." name then .error .relative
  else if w.hasModule name then .ok name
  else match w.firstMissing none (dottedHeads (Text.split '.' name)) with
    | none => .ok name
    | some (missing, before) =>
      let around := before.filter fun b => !w.packages.contains b
      .error (.missing missing around)

def objectNames : List String := StandardModule.words <|
    "__delattr__ __dir__ __eq__ __format__ __ge__ __getattribute__ __getstate__ __gt__ __hash__ " ++
    "__init__ __init_subclass__ __le__ __lt__ __ne__ __new__ __reduce__ __reduce_ex__ __repr__ " ++
    "__setattr__ __sizeof__ __str__ __subclasshook__"

/-- Names that every class answers to besides. -/
def classNames : List String := StandardModule.words <|
    "__bases__ __basicsize__ __call__ __dict__ __dictoffset__ __flags__ __instancecheck__ " ++
    "__itemsize__ __module__ __mro__ __name__ __or__ __prepare__ __qualname__ __ror__ " ++
    "__subclasscheck__ __subclasses__ __weakrefoffset__ mro"

def textNames : List String := StandardModule.words <|
    "capitalize casefold center count encode endswith expandtabs find format format_map index " ++
    "isalnum isalpha isascii isdecimal isdigit isidentifier islower isnumeric isprintable isspace " ++
    "istitle isupper join ljust lower lstrip maketrans partition removeprefix removesuffix replace " ++
    "rfind rindex rjust rpartition rsplit rstrip split splitlines startswith strip swapcase title " ++
    "translate upper zfill"

def numberNames : List String := StandardModule.words <|
    "as_integer_ratio bit_count bit_length conjugate denominator from_bytes imag numerator real " ++
    "to_bytes"

def builtinNames (c : ClassId) : List String :=
  if c = ClassId.str then textNames
  else if c = ClassId.int then numberNames
  else if c = ClassId.decimal then ["from_float", "quantize", "sqrt", "real", "imag"]
  else []

def memberNamed? (members : List (String × Value)) (name : String) : Option (String × Value) := do
  let v ← members.lookup name
  let (first, _) ← members.find? fun m => m.2.equal v
  return (first, v)

def member? (c : ClassId) (name : String) : Option Value := do
  let info ← w.find? c
  let (label, v) ← memberNamed? info.members name
  return .member c (w.mixin c) (some label) v

def ownAttribute? (c : ClassId) (name : String) : Option Entity :=
  match w.nested.lookup (c, name) with
  | some d => some (.cls d)
  | none => match w.member? c name with
    | some v => some (.value v)
    | none => match w.find? c with
      | none => none
      | some info =>
        let default? := (info.shape.bind fun s => s.fields.lookup name).bind FieldDefault.value?
        match default? with
        | some v => some (.value v)
        | none =>
          if info.properties.any (·.name = name) || (builtinNames c).contains name
          then some .other else none

def classAttribute? (c : ClassId) (name : String) : Option Entity :=
  match (w.lineage c).findSome? fun d => w.ownAttribute? d name with
  | some e => some e
  | none =>
    if name = "__class__" then
      some (.cls (if w.isEnumeration c then ⟨"enum", "EnumType", 0⟩ else ClassId.type))
    else if name = "__base__" then
      match w.lineage c with
      | _ :: base :: _ => some (.cls base)
      | _ => some (.value .none)
    else if name = "__doc__" then
      some (if ((w.find? c).bind (·.record)).isSome then .other else .value .none)
    else if objectNames.contains name || classNames.contains name then some .other
    else none

def valueAttribute? (v : Value) (name : String) : Option Entity :=
  match v, name with
  | .type (.cls c), name => w.classAttribute? c name
  | .member _ _ label raw, name =>
    if name = "name" || name = "_name_" then some (.value (label.elim .none .text))
    else if name = "value" || name = "_value_" then some (.value raw)
    else if name = "__class__" then some (.cls (classOf v))
    else if objectNames.contains name then some .other
    else none
  | v, name =>
    if name = "__class__" then some (.cls (classOf v))
    else if objectNames.contains name || (builtinNames (classOf v)).contains name then some .other
    else none

def attribute? (e : Entity) (name : String) : Option Entity :=
  match e with
  | .module m =>
    match (w.module? m).bind fun n => n.attributes.lookup name with
    | some e => some e
    | none =>
      if w.hasModule (m ++ "." ++ name) && name ≠ "" then some (.module (m ++ "." ++ name))
      else if ["__name__", "__dict__", "__loader__", "__spec__", "__class__"].contains name ||
          objectNames.contains name then some .other
      else none
  | .cls c => w.classAttribute? c name
  | .value v => w.valueAttribute? v name
  | .other => if objectNames.contains name then some .other else none

/-- Following names one after the other; `None` on the way ends the walk. -/
def walk? : Entity → List String → Option Entity
  | .value .none, _ => none
  | e, [] => some e
  | e, name :: rest => (w.attribute? e name).bind fun e => walk? e rest

end World

end ModelContracts
