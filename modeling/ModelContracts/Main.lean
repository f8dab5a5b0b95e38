import ModelContracts.Command.Run
import ModelContracts.Logging

/-!
The program. It reads the working folder, runs one command on it, shows what the command has to
say, and brings the folder up to date.
-/

namespace ModelContracts.Program

def usage : List String :=
  ["Usage: modelgen [--help] COMMAND", "",
    "  build TARGETS...  Generate and compile contracts for component classes.",
    "  inspect PATH      Show the version stamp and contracts of an artifact.",
    "  clean             Remove generated artifacts."]

/-! What is outside. -/

def environment : IO Environment :=
  Environment.overrides.filterMapM fun (name, _) => do
    return (← IO.getEnv name).map fun value => (name, value)

def readTree : IO FileTree := do
  let here ← IO.currentDir
  let placed (text : String) : Location := (Path.ofText text).parts
  let mut t : FileTree := { home := placed here.toString }
  for entry in ← here.walkDir do
    if ← entry.isDir then
      t := { t with folders := t.folders ++ [placed entry.toString] }
    else
      match ← (IO.FS.readBinFile entry).toBaseIO with
      | .ok data => t := { t with files := t.files ++ [(placed entry.toString, data.toList)] }
      | .error _ => continue
  return t

def textAt (l : Location) : String := (Path.mk 1 l).text

def writeTree (before after : FileTree) : IO Unit := do
  for (l, _) in before.files do
    if (after.file? l).isNone then IO.FS.removeFile (textAt l)
  for l in before.folders.mergeSort fun a b => b.length ≤ a.length do
    if !after.isFolderAt l then IO.FS.removeDir (textAt l)
  for l in after.folders do
    if !before.isFolderAt l then IO.FS.createDirAll (textAt l)
  for (l, data) in after.files do
    if before.file? l ≠ some data then IO.FS.writeBinFile (textAt l) data.toByteArray

/-! What is shown. -/

def isVerbose (args : List String) : Bool :=
  match Request.ofArguments args with
  | .ok (.build r) => r.verbose
  | _ => false

/-- The log of a run; without the option only warnings and errors appear in it. -/
def logText (verbose : Bool) (records : List LogRecord) : String :=
  let sink : LogSink :=
    { format := some LogSink.standardFormat
      level := ((if verbose then LogLevel.debug else .warning).rank : Nat) }
  String.join (records.map fun r => sink.written ⟨r.source, (r.level.rank : Nat), r.message⟩)

def escapeText (w : World) : Escape → String
  | .config .undecodable => "The settings file is not in UTF-8."
  | .config _ => "A value in the settings file cannot be read."
  | .target _ => "A module cannot be named relative to another one here."
  | .build (.emission e) => (e.message? w).getD "The contracts cannot be written."
  | .build (.compile f) => f.message
  | .build (.file e) => e.text "the artifact"
  | .build .undecodable => "The artifact is not in UTF-8."
  | .build .extension => "The artifact is named like a binary extension module."

/-- Runs the program once; the exit code is given back. -/
def run (args : List String) : IO UInt32 := do
  let before ← readTree
  let host : Host := { environment := ← environment }
  let (result, session) := (runCommand host args).run { world := .standard, files := before }
  (← IO.getStderr).putStr (logText (isVerbose args) session.log)
  match Console.Notice.transcript result.notices with
  | .ok lines => lines.forM IO.println
  | .error _ => IO.eprintln "A notice holds markup that cannot be shown."
  writeTree before session.files
  match result.escape with
  | some e => IO.eprintln (escapeText session.world e)
  | none => if result.notices.isEmpty then usage.forM IO.println
  return result.exitCode.toUInt32

end ModelContracts.Program

def main (args : List String) : IO UInt32 := ModelContracts.Program.run args
