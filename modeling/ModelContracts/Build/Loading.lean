import ModelContracts.Build.Statement
import ModelContracts.Contract.Identity
import ModelContracts.Contract.Source

/-!
Executing the source of a module. Statements run in order; the first that fails ends the run, and
its line and cause are reported. What a successful run leaves is the module with its attributes,
and the world with the classes that the module declares.
-/

namespace ModelContracts

/-- What was raised, and the line at which the module was. -/
structure LoadFailure where
  line : Nat
  kind : String
  text : String
deriving DecidableEq, Repr

/-- What a definition in the body of a class leaves behind its name. -/
inductive Defined where
  | property
  | other
deriving DecidableEq, Repr

structure Execution where
  world : World
  /-- The name and the number of the module. -/
  name : String
  number : Nat
  attributes : List (String × Entity) := []
  functions : List (String × List (Nat × PlainStatement)) := []

namespace Execution

abbrev Step := Except LoadFailure Execution

def set (x : Execution) (name : String) (e : Entity) : Execution :=
  { x with attributes := setEntry name e x.attributes }

def lookup? (x : Execution) (name : String) : Option Entity :=
  match x.attributes.lookup name with
  | some e => some e
  | none => x.world.attribute? (.module "builtins") name

def missingName (line : Nat) (name : String) : LoadFailure :=
  ⟨line, "NameError", "name " ++ Text.spell name ++ " is not defined"⟩

def missingAttribute (line : Nat) (e : Entity) (name : String) : LoadFailure :=
  let owner := match e with
    | .module m => "module " ++ Text.spell m
    | .cls c => "type object " ++ Text.spell c.simpleName
    | .value v => Text.spell (Value.className v) ++ " object"
    | .other => "'function' object"
  ⟨line, "AttributeError", owner ++ " has no attribute " ++ Text.spell name⟩

def walk (x : Execution) (line : Nat) : Entity → List String → Except LoadFailure Entity
  | e, [] => .ok e
  | e, name :: rest => match x.world.attribute? e name with
    | some e => walk x line e rest
    | none => .error (missingAttribute line e name)

def resolve (x : Execution) (line : Nat) (name : String) : Except LoadFailure Entity :=
  if name = "None" then .ok (.value .none)
  else match Text.split '.' name with
    | [] => .error (missingName line name)
    | first :: rest => match x.lookup? first with
      | some e => x.walk line e rest
      | none => .error (missingName line first)

/-! Plain statements. -/

def importFailure (line : Nat) (e : ImportError) : LoadFailure :=
  ⟨line, "ModuleNotFoundError", e.message⟩

def importName (line : Nat) (module : String) (x : Execution) (name : String) : Step :=
  match x.world.attribute? (.module module) name with
  | some e => .ok (x.set name e)
  | none => .error ⟨line, "ImportError", "cannot import name " ++ Text.spell name ++ " from " ++
      Text.spell module ++ " (unknown location)"⟩

def importNames (line : Nat) (module : String) (names : List String) (x : Execution) : Step :=
  match x.world.import? module with
  | .error e => .error (importFailure line e)
  | .ok _ => names.foldlM (importName line module) x

def importModule (line : Nat) (module name : String) (x : Execution) : Step :=
  match x.world.import? module with
  | .error e => .error (importFailure line e)
  | .ok _ =>
    let bound := if name = Text.firstPiece '.' module then name else module
    .ok (x.set name (.module bound))

/-- The text of an error: a missing key is shown as it is spelled. -/
def failureText (kind : String) (text : Option String) : String :=
  match text with
  | none => ""
  | some s => if kind = "KeyError" then Text.spell s else s

def fail (line : Nat) (kind : String) (text : Option String) (x : Execution) : Step :=
  match x.resolve line kind with
  | .error e => .error e
  | .ok _ => .error ⟨line, kind, failureText kind text⟩

def runSimple (line : Nat) (x : Execution) : PlainStatement → Step
  | .nothing | .call .. => .ok x
  | .setText name text => .ok (x.set name (.value (.text text)))
  | .setNumber name n => .ok (x.set name (.value (.int n)))
  | .importNames module names => importNames line module names x
  | .importModule module name => importModule line module name x
  | .fail kind text => fail line kind text x
  | .mention name => (x.resolve line name).map fun _ => x

/-- Runs the body of a function; what it binds is its own. -/
def callFunction (body : List (Nat × PlainStatement)) (x : Execution) : Step :=
  (body.foldlM (fun y (n, s) => runSimple n y s) x).map fun _ => x

/-- The failure of asking a number for what only classes have. -/
def numberFailure (line : Nat) : LoadFailure :=
  ⟨line, "AttributeError", "'int' object has no attribute '__module__'"⟩

def runPlain (line : Nat) (x : Execution) (s : PlainStatement) : Step :=
  match s with
  | .call name argument =>
    match x.functions.lookup name with
    | some body => callFunction body x
    | none => match x.resolve line name, argument with
      | .error e, _ => .error e
      | .ok _, some _ => .error (numberFailure line)
      | .ok _, none => .ok x
  | s => runSimple line x s

/-! Classes. -/

def decoratorMarker (x : Execution) (d : Decorator) : Except LoadFailure (Option Marker) := do
  match ← x.resolve d.line d.name with
  | .cls c => match x.world.shape? c with
    | some shape => return Marker.make? c shape (d.argument.toList.map Value.text)
    | none => return none
  | _ => return none

/-- Decorating by a name of the module. A class takes no function, unless it is the one of properties or
one of records. -/
def decorateOuter (x : Execution) (d : Decorator) : Except LoadFailure Defined := do
  match ← x.resolve d.line d.name with
  | .cls c =>
    if c = ClassId.builtin "property" then return .property
    else if ((x.world.find? c).bind (·.record)).isSome then return .other
    else throw ⟨d.line, "TypeError", c.simpleName ++ "() takes no arguments"⟩
  | _ => return .other

/-- The functions of a property that decorate another function for it. -/
def accessorNames : List String := ["getter", "setter", "deleter"]

/-- Decorating in the body of a class. What the body has defined hides what the module has. -/
def decorate (x : Execution) (scope : List (String × Defined)) (d : Decorator) :
    Except LoadFailure Defined :=
  match scope.lookup (Text.firstPiece '.' d.name) with
  | none => x.decorateOuter d
  | some .other => .ok .other
  | some .property => match (Text.split '.' d.name).tail with
    | [] => .error ⟨d.line, "TypeError", "'property' object is not callable"⟩
    | name :: _ =>
      if accessorNames.contains name then .ok .property
      else .error ⟨d.line, "AttributeError", "'property' object has no attribute " ++ Text.spell name⟩

/-- Runs one definition: the decorator that stands first is applied last. -/
def define (x : Execution) (scope : List (String × Defined)) (f : Definition) :
    Except LoadFailure (List (String × Defined)) := do
  let values ← f.decorators.mapM (x.decorate scope)
  return setEntry f.name (values.head?.getD .other) scope

/-- Runs the body of a class. What is left are the names that it has defined. -/
def runBody (x : Execution) (body : List Definition) : Except LoadFailure (List (String × Defined)) :=
  body.foldlM x.define []

def baseClass (x : Execution) (line : Nat) (base : Option String) : Except LoadFailure ClassId :=
  match base with
  | none => .ok ClassId.object
  | some name => do
    match (← x.resolve line name) with
    | .cls c =>
      if World.finalClasses.contains c then
        throw ⟨line, "TypeError", "type " ++ Text.spell c.simpleName ++
          " is not an acceptable base type"⟩
      else return c
    | .value .none => throw ⟨line, "TypeError", "NoneType takes no arguments"⟩
    | _ => return ClassId.object

def declareClass (x : Execution) (name : String) (base : ClassId) : Execution :=
  let c : ClassId := ⟨x.name, name, x.number⟩
  let info : ClassInfo := { id := c, lineage := c :: x.world.lineage base }
  { x with world := { x.world with classes := x.world.classes ++ [info] } }.set name (.cls c)

def runClass (decorators : List Decorator) (line : Nat) (name : String) (base : Option String)
    (body : List Definition) (x : Execution) : Step := do
  let markers ← decorators.mapM x.decoratorMarker
  let b ← x.baseClass line base
  let _ ← x.runBody body
  let y := x.declareClass name b
  let c : ClassId := ⟨x.name, name, x.number⟩
  return { y with world := (markers.filterMap id).reverse.foldl (fun w m => w.mark c m) y.world }

def run (x : Execution) : Statement → Step
  | .plain line s => runPlain line x s
  | .function name body =>
    .ok { x.set name .other with functions := setEntry name body x.functions }
  | .classDef decorators line name base body => runClass decorators line name base body x

def runAll (x : Execution) (statements : List Statement) : Step := statements.foldlM run x

def module (x : Execution) : Module := ⟨x.name, x.attributes, x.number⟩

end Execution

namespace Module

def text? (m : Module) (name : String) : Option String :=
  match m.attributes.lookup name with
  | some (.value (.text s)) => some s
  | _ => none

def version? (m : Module) : Option String := m.text? versionName

end Module

end ModelContracts
