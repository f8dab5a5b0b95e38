import ModelContracts.Build.Compilation
import ModelContracts.Build.Workspace
import ModelContracts.Config.Settings
import ModelContracts.Contract.Stamp

/-!
Building the module of contracts for a path. A stale artifact is deleted first, if that is wanted;
then an artifact with the right version is loaded, or a module in memory is taken, and otherwise the
contracts are derived and compiled. A build that fails records nothing.
-/

namespace ModelContracts

def standardVersion : String := "0.3.0"

structure Builder where
  settings : Settings := {}
  version : String := standardVersion
  /-- The rules that are used in place of the stock rules. -/
  book : RuleBook := RuleBook.stock

namespace Builder

open Building

variable (b : Builder)

def versionOr (version : String) : String := if version.isEmpty then standardVersion else version

def truth (v : Bool) : String := if v then "True" else "False"

def lookFor (path : Path) : Building Bool := do
  let s ← get
  let (found, cache) := s.cache.lookFor s.files path
  set { s with cache := cache }
  return found

def isMatch (path : Path) : Building Bool := do
  return Stamp.isMatch (← get).files path b.version

def report (level : LogLevel) (path : Path) (text : String) : Building Unit :=
  log (.build level (path.name ++ ": " ++ text))

/-- Deletes a stale artifact; one that cannot be deleted is left alone. -/
def deleteStale (path : Path) : Building Unit := do
  let s ← get
  match (Filing.delete path).run s.files with
  | (.ok _, files) =>
    set { s with files := files, cache := s.cache.forget path }
    log (.build .info ("Deleted stale artifact " ++ path.text))
  | (.error e, files) =>
    set { s with files := files }
    log (.build .warning ("Could not delete stale artifact " ++ path.text ++ ": " ++
      e.text (Text.spell path.text)))

def cleanup (path : Path) : Building Unit := do
  if b.settings.cleanupEnabled then
    if ← lookFor path then
      if !(← b.isMatch path) || b.settings.devMachine then deleteStale path

/-- The module that the artifact at a path becomes when it is loaded now, if it becomes one. -/
def tryLoad (path : Path) (moduleName : String) : Building (Option Module) :=
  tryCatch (some <$> Compilation.load path moduleName) fun e => match e with
    | .compile f => do
      log (.build .warning ("Cached artifact " ++ path.text ++
        " failed to load, rebuilding: " ++ f.message))
      return none
    | e => throw e

/-- The module of the artifact at a path: one that was loaded from it and has the version, or one
loaded now. -/
def loadArtifact (path : Path) (moduleName : String) : Building (Option Module) := do
  match ((← get).cache.loaded? path).filter fun m => m.version? = some b.version with
  | some m => return some m
  | none => match ← tryLoad path moduleName with
    | none => return none
    | some m =>
      setCache fun c => (c.putLoaded path m).putModule moduleName m
      return some m

def fromDisk (path : Path) (moduleName : String) (wanted : Bool) : Building (Option Module) := do
  if !b.settings.forceRebuild && wanted then b.loadArtifact path moduleName else return none

/-- Reuse of a module in memory, which only builds that keep no files do. -/
def fromMemory (moduleName : String) : Building (Option Module) := do
  if !b.settings.forceRebuild && !b.settings.runtimeMode then
    return (← get).cache.module? moduleName
  else return none

def derive (components : List Component) (path : Path) : Building Blueprint := do
  let s : Synthesizer :=
    { world := (← get).world, stem := Artifact.stem path, version := b.version
      namePrefix := b.settings.namePrefix, book := b.book }
  synthesizing s.start (s.synthesize components)

def logFailure (path : Path) (e : BuildError) : Building Unit := do
  if let .compile f := e then
    report .error path (BuildState.failed.display ++ " with " ++ toString f.diagnostics.length ++
      " diagnostic(s)")

def compileSource (plan : Blueprint) (path : Path) (moduleName : String) : Building Module :=
  tryCatch (Compilation.compile plan.source plan.references path moduleName b.settings.runtimeMode)
    fun e => do
      logFailure path e
      throw e

/-- Records a module that was made, and the artifact that it was loaded from if there is one. -/
def record (path : Path) (moduleName : String) (m : Module) : Building Unit := do
  setCache (·.putModule moduleName m)
  if b.settings.runtimeMode then
    setCache (·.putLoaded path m)
    let _ ← lookFor path

def compile (components : List Component) (path : Path) (moduleName : String) :
    Building (BuildResult Module) := do
  let plan ← b.derive components path
  filing (Filing.makeFolders path.parent)
  let m ← b.compileSource plan path moduleName
  b.record path moduleName m
  report .info path (BuildState.compiled.display ++ " " ++ toString plan.contracts.length ++
    " contract(s)")
  let artifact : ArtifactInfo :=
    { source := plan.source, references := plan.references, path := path, version := b.version
      moduleName := moduleName }
  return { state := .compiled, module := m, artifact := some artifact, path := some path }

def survey (path : Path) : Building Bool := do
  b.cleanup path
  let found ← lookFor path
  let fromCache := b.settings.loadFromCache || (b.settings.runtimeMode && found)
  let fits := found && (← b.isMatch path)
  report .debug path ("exists=" ++ truth found ++ " load_from_cache=" ++ truth fromCache ++
    " runtime_mode=" ++ truth b.settings.runtimeMode ++ " version_match=" ++ truth fits)
  return fromCache && fits

/-- The record of a module that was not made, and where it was found. -/
def reused (path : Path) (place : String) : LogRecord :=
  .build .info (path.name ++ ": " ++ (BuildState.reused.display ++ " from " ++ place))

/-- A module that need not be made. -/
def reuse (path : Path) (moduleName : String) : Building (Option Module) := do
  match ← b.fromDisk path moduleName (← b.survey path) with
  | some m =>
    log (reused path "disk")
    return some m
  | none => match ← b.fromMemory moduleName with
    | some m =>
      log (reused path "memory")
      return some m
    | none => return none

def run (components : List Component) (path : Path) : Building (BuildResult Module) := do
  let moduleName := Artifact.moduleName path
  match ← b.reuse path moduleName with
  | some m => return BuildResult.fromCache m path
  | none => b.compile components path moduleName

def takeOff (path : Path) (s : Session) : Session :=
  { s with cache := s.cache.setFlights (s.cache.flights.join (s.files.resolve path)).2 }

def land (key : Location) (s : Session) : Session :=
  { s with cache := s.cache.setFlights (s.cache.flights.withdraw key) }

/-- Builds the module for a path as the owner of a flight: the flight stands while the build runs
and is removed whatever its outcome. -/
def build (components : List Component) (path : Path) : Building (BuildResult Module) := fun s =>
  let (r, t) := b.run components path |>.run (takeOff path s)
  (r, land (s.files.resolve path) t)

end Builder

end ModelContracts
