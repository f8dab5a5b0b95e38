/-! Log records: what an operation has to tell besides its result. -/

namespace ModelContracts

inductive LogLevel where
  | debug | info | warning | error
deriving DecidableEq, Repr

def LogLevel.name : LogLevel → String
  | .debug => "DEBUG"
  | .info => "INFO"
  | .warning => "WARNING"
  | .error => "ERROR"

def LogLevel.rank : LogLevel → Nat
  | .debug => 10
  | .info => 20
  | .warning => 30
  | .error => 40

structure LogRecord where
  level : LogLevel
  source : String
  message : String
deriving DecidableEq, Repr

namespace LogRecord

def synthesis (level : LogLevel) (message : String) : LogRecord :=
  ⟨level, "modelgen.synth.synthesizer", "[SYNTH] " ++ message⟩

def reference (level : LogLevel) (message : String) : LogRecord :=
  ⟨level, "modelgen.synth.references", "[SYNTH] " ++ message⟩

def registry (message : String) : LogRecord := ⟨.debug, "modelgen.translate.registry", message⟩

def build (level : LogLevel) (message : String) : LogRecord :=
  ⟨level, "modelgen.build.builder", "[BUILD] " ++ message⟩

def compile (message : String) : LogRecord :=
  ⟨.debug, "modelgen.build.backend", "[COMPILE] " ++ message⟩

def cache (message : String) : LogRecord := ⟨.debug, "modelgen.build.cache", "[CACHE] " ++ message⟩

end LogRecord

end ModelContracts
