import ModelContracts.Build.Cache
import ModelContracts.Build.Loading
import ModelContracts.Contract.Synthesis

/-!
The state that builds work on: the world with its modules, the files, the cache, what is remembered
between builds, and the log. A build that fails keeps what it changed before it failed.
-/

namespace ModelContracts

/-- A source that did not become a module: every diagnostic, the source and its path. -/
structure CompileFailure where
  diagnostics : List String
  source : String
  path : Path
deriving DecidableEq, Repr

def CompileFailure.message (f : CompileFailure) : String :=
  "Module=" ++ f.path.text ++ "\n" ++ String.intercalate "\n" f.diagnostics

inductive BuildError where
  | emission (e : EmissionError)
  | compile (f : CompileFailure)
  | file (e : FileError)
  /-- A file that is no text. -/
  | undecodable
  /-- A file that is named like a binary extension module and is none. -/
  | extension

abbrev ModuleCache := BuildCache Module BuildError

structure Session where
  world : World
  files : FileTree := {}
  cache : ModuleCache := {}
  converters : ConverterMemory := []
  formed : FormMemory := []
  log : List LogRecord := []
  /-- The sources that were executed, the first one first: modules are numbered by their place. -/
  sources : List String := []
  /-- How often a source was compiled, and how often one was loaded from its file. -/
  compiles : Nat := 0
  loads : Nat := 0

abbrev Building := ExceptT BuildError (StateM Session)

namespace Building

def log (r : LogRecord) : Building Unit := modify fun s => { s with log := s.log ++ [r] }

def filing {α : Type} (m : Filing α) : Building α := fun s =>
  let (r, t) := m.run s.files
  (r.mapError BuildError.file, { s with files := t })

def synthesizing {α : Type} (start : Draft) (m : Synthesis α) : Building α := fun s =>
  let start := { start with
    emission := { start.emission with memory := s.converters, formed := s.formed, log := s.log } }
  let (r, d) := m.run start
  (r.mapError BuildError.emission,
    { s with converters := d.emission.memory, formed := d.emission.formed, log := d.emission.log })

def clearCache : Building Unit := do
  let n := (← get).cache.size
  modify fun s => { s with cache := s.cache.clear }
  log (.cache ("Cleared " ++ toString n ++ " cached module(s)"))

def setCache (f : ModuleCache → ModuleCache) : Building Unit :=
  modify fun s => { s with cache := f s.cache }

end Building

end ModelContracts
