import ModelContracts.Build.Builder
import ModelContracts.Command.Arguments
import ModelContracts.Command.Target
import ModelContracts.Config.Layers
import ModelContracts.Console.Notice

/-!
The commands. Each shows notices and ends with an exit code; an error that is not shown escapes with
its cause. What a command did to the session before it ended stays.
-/

namespace ModelContracts

/-- An error that a command does not report. -/
inductive Escape where
  | config (e : ConfigError)
  | target (e : TargetError)
  | build (e : BuildError)

inductive Stop where
  | reported
  /-- The arguments are not right. -/
  | usage
  | escaped (e : Escape)

/-- Where commands are run: what they take from outside the session. -/
structure Host where
  workspace : Workspace := {}
  environment : Environment := []

structure CommandState where
  session : Session
  notices : List Console.Notice := []

abbrev Commanding := ExceptT Stop (StateM CommandState)

/-- What a run of the program comes to. -/
structure CommandResult where
  exitCode : Nat
  notices : List Console.Notice
  escape : Option Escape := none

namespace Commanding

def tell (n : Console.Notice) : Commanding Unit :=
  modify fun s => { s with notices := s.notices ++ [n] }

def failWith {α : Type} (message : String) : Commanding α := do
  tell (.error message)
  throw .reported

/-- Works on the session; what its errors mean is up to the caller. -/
def building {α : Type} (m : Building α) : Commanding (Except BuildError α) := do
  let s ← get
  let (r, session) := m.run s.session
  set { s with session := session }
  return r

/-- Works on the session; errors escape. -/
def buildingOrEscape {α : Type} (m : Building α) : Commanding α := do
  match ← building m with
  | .ok a => return a
  | .error e => throw (.escaped (.build e))

def files : Commanding FileTree := return (← get).session.files

def world : Commanding World := return (← get).session.world

/-! Settings and targets. -/

/-- The settings; an error of the configuration is shown. -/
def settings (h : Host) (config : Option Path) (given : Entries) : Commanding Settings := do
  match Settings.load (← files) h.workspace config h.environment given with
  | .ok s => return s
  | .error e =>
    if e.isReported then failWith (e.message?.getD "")
    else throw (.escaped (.config e))

def target (spec : String) : Commanding ClassId := do
  match (← world).target? spec with
  | .ok c => return c
  | .error .relative => throw (.escaped (.target .relative))
  | .error _ => throw .usage

/-! Contracts of a module. -/

/-- The classes below the model node that say they are of the module, by their names. -/
def contracts (w : World) (m : Module) : List (String × ClassId) :=
  let sorted := m.attributes.mergeSort fun a b => a.1 ≤ b.1
  sorted.filterMap fun (name, e) => match e.class? with
    | some c => if c.moduleName = m.name && w.derives c .modelNode then some (name, c) else none
    | none => none

def backing (w : World) (c : ClassId) : String := ((w.recordedName? c).bind (·.text?)).getD ""

def isAbstract (w : World) (c : ClassId) : Bool :=
  !(w.classMarkersOf c MarkerShape.modelAbstractClass.kind).isEmpty

/-! The commands. -/

def modelName : String := "Model"

def overrides (r : BuildRequest) : Entries :=
  (if r.designTime then [(.text "runtime_mode", .bool false)] else []) ++
    if r.force then [(.text "force_rebuild", .bool true)] else []

def components (r : BuildRequest) : Commanding (List Component) := do
  let base ← r.base.mapM target
  let rootBase ← r.rootBase.mapM target
  r.targets.mapM fun spec => do
    let c ← target spec
    return { type := c, base := base.getD .modelNodeEnabled, rootBase := rootBase
             isAbstract := r.isAbstract }

def reported? (w : World) : BuildError → Option String
  | .emission e => match e with
    | .unsupported _ | .nameConflict .. => e.message? w
    | _ => none
  | _ => none

def showDiagnostics (f : CompileFailure) : Commanding Unit :=
  f.diagnostics.forM fun d => tell (.text ("    " ++ d) "dim")

def buildFailed {α : Type} (showSource : Bool) (e : BuildError) : Commanding α := do
  match e with
  | .compile f =>
    tell (.error ("Compilation failed for " ++ f.path.text))
    showDiagnostics f
    if showSource then tell (.code f.source)
    throw .reported
  | e => match reported? (← world) e with
    | some message => failWith message
    | none => throw (.escaped (.build e))

def build (h : Host) (r : BuildRequest) : Commanding Unit := do
  let settings ← settings h r.config (overrides r)
  let components ← components r
  let b : Builder := { settings := settings }
  let path ← match r.output with
    | some p => pure p
    | none =>
      buildingOrEscape (Building.filing (h.workspace.artifact modelName b.version settings.baseDir))
  let mode := if r.designTime then "design-time" else "runtime"
  tell (.header "modelgen build"
    (toString components.length ++ " component(s) -> " ++ path.text ++ " (" ++ mode ++ ")"))
  modify fun s => { s with session := { s.session with cache := {} } }
  let result ← match ← building (b.build components path) with
    | .ok result => pure result
    | .error e => buildFailed r.showSource e
  let w ← world
  tell (.heading "Contracts")
  tell (.table "" ["Contract", "Backing type"]
    ((contracts w result.module).map fun (name, c) => [name, backing w c]))
  if let (true, some artifact) := (r.showSource, result.artifact) then
    tell (.heading "Source")
    tell (.code artifact.source)
  tell (.success (result.state.display ++ ": " ++ path.text))

def inspect (p : Path) : Commanding Unit := do
  let t ← files
  if !t.isFile p then failWith ("No artifact at " ++ p.text)
  tell (.header "modelgen inspect" p.text)
  let stamp := Stamp.ofFile? t p
  let shown := (stamp.filter fun v => !v.isEmpty).getD "missing"
  tell (.status "Version stamp" stamp.isSome shown)
  tell (.status "Matches generator" (stamp = some standardVersion) standardVersion)
  let m ← match ← building (Compilation.load p (Artifact.moduleName p)) with
    | .ok m => pure m
    | .error (.compile f) => do
      tell (.error "Artifact failed to load")
      showDiagnostics f
      throw .reported
    | .error e => throw (.escaped (.build e))
  let w ← world
  tell (.heading "Contracts")
  tell (.table "" ["Contract", "Backing type", "Abstract"]
    ((contracts w m).map fun (name, c) => [name, backing w c, if isAbstract w c then "yes" else ""]))

def clean (h : Host) (r : CleanRequest) : Commanding Unit := do
  let settings ← settings h r.config []
  let t ← files
  let base := h.workspace.artifacts t settings.baseDir
  let p := if r.allVersions then base else base.child standardVersion
  if !t.exists? p then tell (.info ("Nothing to clean at " ++ p.text))
  else match ← building (Building.filing (Filing.deleteFolder p)) with
    | .ok _ => tell (.success ("Removed " ++ p.text))
    | .error (.file e) =>
      let spelled := Text.spell p.text
      let shown := if e = .notFolder then "PosixPath(" ++ spelled ++ ")" else spelled
      failWith ("Could not remove " ++ p.text ++ ": " ++ e.text shown)
    | .error e => throw (.escaped (.build e))

def perform (h : Host) : Request → Commanding Unit
  | .build r => build h r
  | .inspect p => inspect p
  | .clean r => clean h r
  | .help => return ()

end Commanding

def Stop.exitCode : Stop → Nat
  | .usage => 2
  | .reported | .escaped _ => 1

def runCommand (h : Host) (args : List String) : StateM Session CommandResult := fun session =>
  match Request.ofArguments args with
  | .error _ => (⟨2, [], none⟩, session)
  | .ok request =>
    let (r, s) := (Commanding.perform h request).run { session := session }
    let result : CommandResult := match r with
      | .ok _ => ⟨0, s.notices, none⟩
      | .error stop => match stop with
        | .escaped e => ⟨stop.exitCode, s.notices, some e⟩
        | _ => ⟨stop.exitCode, s.notices, none⟩
    (result, s.session)

end ModelContracts
