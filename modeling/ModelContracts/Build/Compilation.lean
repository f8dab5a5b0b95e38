import ModelContracts.Build.Session
import ModelContracts.File.Head
import ModelContracts.Text.Order

/-!
Turning sources into modules. Every referenced module must exist and the source must be well formed;
then it is written to its file, if it is to be kept, and executed. A module that was executed is
registered under its name; when the execution fails, the module that was registered before stays
and the file is deleted. A file that is named like a binary extension module stays as it was written.
-/

namespace ModelContracts

namespace Compilation

open Building

def diagnostic (path : Path) (line column : Nat) (message : String) : String :=
  path.text ++ "(" ++ toString line ++ "," ++ toString column ++ "): error: " ++ message

def resolves (w : World) (name : String) : Bool :=
  match w.import? name with
  | .ok _ => true
  | .error _ => false

def unresolvedReferences (w : World) (names : List String) (path : Path) : List String :=
  let once := (Text.sorted names).eraseDups
  (once.filter fun n => !resolves w n).map fun n =>
    diagnostic path 1 1 ("Cannot resolve module reference '" ++ n ++ "'")

def syntaxDiagnostics (source : String) (path : Path) : List String :=
  match Statement.ofSource source with
  | .ok _ => []
  | .error f => [diagnostic path f.line f.column f.message]

/-- What loads a module from a file, which the end of its name tells. -/
inductive Loader where
  | source
  | extension
  | missing
deriving DecidableEq, Repr

def loader (path : Path) : Loader :=
  if Text.endsWith ".so" path.text then .extension
  else if Text.endsWith ".py" path.text || Text.endsWith ".pyc" path.text then .source
  else .missing

/-- The outcome of executing a source: the world with the module registered, and the module. It is
registered without attributes before the source runs, so that the source finds nothing in it. -/
def outcome (w : World) (number : Nat) (source moduleName : String) :
    Except LoadFailure (World × Module) :=
  match Statement.ofSource source with
  | .error f => .error ⟨f.line, "SyntaxError", f.message⟩
  | .ok statements =>
    let world := w.putModule { name := moduleName, attributes := [], number := number }
    match Execution.runAll { world := world, name := moduleName, number := number } statements with
    | .error e => .error e
    | .ok x => .ok (x.world.putModule x.module, x.module)

/-- Refuses a file that sources are not loaded from. -/
def checkLoader (source : String) (path : Path) : Building Unit :=
  match loader path with
  | .source => return ()
  | .extension => throw .extension
  | .missing => throw (.compile ⟨[diagnostic path 1 1 "Cannot create module spec"], source, path⟩)

def runSource (source : String) (path : Path) (moduleName origin : String) : Building Module := do
  let s ← get
  match outcome s.world (s.sources.length + 1) source moduleName with
  | .error f =>
    modify fun s => { s with sources := s.sources ++ [source] }
    throw (.compile ⟨[diagnostic path f.line 1 (f.kind ++ ": " ++ f.text)], source, path⟩)
  | .ok (w, m) =>
    modify fun s => { s with sources := s.sources ++ [source], world := w }
    log (.compile ("Loaded " ++ moduleName ++ " from " ++ origin))
    return m

/-- Executes a source that stands in a file, or one that does not. -/
def execute (source : String) (path : Path) (moduleName : String) (fromFile : Bool) :
    Building Module := do
  if fromFile then
    checkLoader source path
    runSource source path moduleName "disk"
  else runSource source path moduleName "memory"

def deleteIfThere (path : Path) : Building Unit :=
  tryCatch (filing (Filing.delete path)) fun e => match e with
    | .file .notFound => return ()
    | e => throw e

/-- Executes the source from its file, which is deleted when the source does not become a module. -/
def executeOrDelete (source : String) (path : Path) (moduleName : String) : Building Module :=
  tryCatch (execute source path moduleName true) fun e => do
    if let .compile _ := e then deleteIfThere path
    throw e

/-- Refuses a source that refers to what is not there or is not well formed. -/
def check (source : String) (references : List String) (path : Path) : Building Unit := do
  let diagnostics := unresolvedReferences (← get).world references path ++
    syntaxDiagnostics source path
  if diagnostics.isEmpty then return () else throw (.compile ⟨diagnostics, source, path⟩)

def install (source : String) (path : Path) (moduleName : String) : Building Module := do
  filing (Filing.makeFolders path.parent)
  filing (Filing.write path (Text.encodeUtf8 source))
  log (.compile ("Wrote " ++ path.text))
  executeOrDelete source path moduleName

def compile (source : String) (references : List String) (path : Path) (moduleName : String)
    (persist : Bool) : Building Module := do
  modify fun s => { s with compiles := s.compiles + 1 }
  check source references path
  if persist then install source path moduleName
  else execute source path moduleName false

def load (path : Path) (moduleName : String) : Building Module := do
  modify fun s => { s with loads := s.loads + 1 }
  match (← get).files.read? path with
  | .error e => throw (.file e)
  | .ok data => match fileText data with
    | none => throw .undecodable
    | some source =>
      check source [] path
      execute source path moduleName true

end Compilation

end ModelContracts
