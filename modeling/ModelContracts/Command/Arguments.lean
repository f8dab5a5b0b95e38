import ModelContracts.File.Path

/-!
The arguments of the command line. Options may stand anywhere before two dashes; short ones may be
run together, and the value of a short option may follow it directly. Of an option that is given
several times the last one counts.
-/

namespace ModelContracts

/-- An option: its names without dashes, and whether a value belongs to it. -/
structure CommandOption where
  long : String
  short : Option Char := none
  takesValue : Bool := false
deriving DecidableEq, Repr

/-- Options by their long names with the values given, and the other arguments. -/
structure ParsedArguments where
  options : List (String × String) := []
  positional : List String := []
deriving DecidableEq, Repr

/-- The arguments do not fit the command. -/
inductive UsageError where
  | unknownOption (name : String)
  | missingValue (name : String)
  | unexpectedValue (name : String)
  | missingArgument
  | unexpectedArgument
  | unknownCommand
deriving DecidableEq, Repr

namespace ParsedArguments

def add (p : ParsedArguments) (name value : String) : ParsedArguments :=
  { p with options := (name, value) :: p.options }

def has (p : ParsedArguments) (name : String) : Bool := (p.options.lookup name).isSome

def value? (p : ParsedArguments) (name : String) : Option String := p.options.lookup name

/-- Reads short options that are run together. The arguments that are left come with the result. -/
def short (known : List CommandOption) (p : ParsedArguments) (rest : List String) :
    List Char → Except UsageError (ParsedArguments × List String)
  | [] => .ok (p, rest)
  | c :: more =>
    match known.find? (·.short = some c) with
    | none => .error (.unknownOption ("-" ++ c.toString))
    | some o =>
      if !o.takesValue then short known (p.add o.long "") rest more
      else if !more.isEmpty then .ok (p.add o.long (String.ofList more), rest)
      else match rest with
        | value :: rest => .ok (p.add o.long value, rest)
        | [] => .error (.missingValue o.long)

/-- Reads a long option, with the value behind an equals sign if there is one. -/
def long (known : List CommandOption) (p : ParsedArguments) (rest : List String) (text : String) :
    Except UsageError (ParsedArguments × List String) :=
  let (name, given) := match Text.cut '=' text with
    | some (name, value) => (name, some value)
    | none => (text, none)
  match known.find? (·.long = name) with
  | none => .error (.unknownOption ("--" ++ name))
  | some o =>
    match o.takesValue, given, rest with
    | false, none, rest => .ok (p.add o.long "", rest)
    | false, some _, _ => .error (.unexpectedValue o.long)
    | true, some value, rest => .ok (p.add o.long value, rest)
    | true, none, value :: rest => .ok (p.add o.long value, rest)
    | true, none, [] => .error (.missingValue o.long)

def readFrom (known : List CommandOption) :
    Nat → ParsedArguments → List String → Except UsageError ParsedArguments
  | 0, p, _ => .ok p
  | _, p, [] => .ok p
  | fuel + 1, p, arg :: rest =>
    match arg.toList with
    | ['-', '-'] => .ok { p with positional := p.positional ++ rest }
    | '-' :: '-' :: name => do
      let (p, rest) ← long known p rest (String.ofList name)
      readFrom known fuel p rest
    | '-' :: c :: name => do
      let (p, rest) ← short known p rest (c :: name)
      readFrom known fuel p rest
    | _ => readFrom known fuel { p with positional := p.positional ++ [arg] } rest

def read (known : List CommandOption) (args : List String) : Except UsageError ParsedArguments :=
  readFrom known args.length {} args

end ParsedArguments

structure BuildRequest where
  targets : List String
  output : Option Path := none
  base : Option String := none
  rootBase : Option String := none
  isAbstract : Bool := false
  designTime : Bool := false
  force : Bool := false
  config : Option Path := none
  showSource : Bool := false
  verbose : Bool := false
deriving DecidableEq, Repr

structure CleanRequest where
  allVersions : Bool := false
  config : Option Path := none
deriving DecidableEq, Repr

/-- What is asked for on the command line. -/
inductive Request where
  | build (r : BuildRequest)
  | inspect (path : Path)
  | clean (r : CleanRequest)
  | help
deriving DecidableEq, Repr

namespace Request

def helpOption : CommandOption := { long := "help" }

def configOption : CommandOption := { long := "config", short := some 'c', takesValue := true }

def buildOptions : List CommandOption :=
  [helpOption, configOption,
    { long := "output", short := some 'o', takesValue := true },
    { long := "base", takesValue := true }, { long := "root-base", takesValue := true },
    { long := "abstract" }, { long := "design-time" }, { long := "force", short := some 'f' },
    { long := "source", short := some 's' }, { long := "verbose", short := some 'v' }]

def cleanOptions : List CommandOption :=
  [helpOption, configOption, { long := "all", short := some 'a' }]

/-- An option whose value, if it is not empty, names something. -/
def nonempty (s : Option String) : Option String := s.filter fun t => !t.isEmpty

def ofBuild (p : ParsedArguments) : Except UsageError Request :=
  if p.positional.isEmpty then .error .missingArgument
  else .ok (.build
    { targets := p.positional
      output := (p.value? "output").map Path.ofText
      base := nonempty (p.value? "base")
      rootBase := nonempty (p.value? "root-base")
      isAbstract := p.has "abstract"
      designTime := p.has "design-time"
      force := p.has "force"
      config := (p.value? "config").map Path.ofText
      showSource := p.has "source"
      verbose := p.has "verbose" })

def ofInspect (p : ParsedArguments) : Except UsageError Request :=
  match p.positional with
  | [] => .error .missingArgument
  | [path] => .ok (.inspect (Path.ofText path))
  | _ => .error .unexpectedArgument

def ofClean (p : ParsedArguments) : Except UsageError Request :=
  if p.positional.isEmpty then
    .ok (.clean { allVersions := p.has "all", config := (p.value? "config").map Path.ofText })
  else .error .unexpectedArgument

def ofCommand (known : List CommandOption) (make : ParsedArguments → Except UsageError Request)
    (args : List String) : Except UsageError Request := do
  let p ← ParsedArguments.read known args
  if p.has "help" then return .help else make p

/-- The request that the arguments make. The first one that is no option names the command. -/
def ofArguments : List String → Except UsageError Request
  | "build" :: rest => ofCommand buildOptions ofBuild rest
  | "inspect" :: rest => ofCommand [helpOption] ofInspect rest
  | "clean" :: rest => ofCommand cleanOptions ofClean rest
  | "--help" :: _ => .ok .help
  | "--" :: rest => ofArguments rest
  | [] => .error .missingArgument
  | name :: _ =>
    if Text.startsWith "-" name then .error (.unknownOption name) else .error .unknownCommand

end Request

end ModelContracts
