import TextPipeline.Script.Compiler

/-!
# Settings

The settings of the program, with the values they have when nothing is set, and the conditions
that settings must meet.
-/

namespace TextPipeline

/-- How log lines are written. -/
inductive LogFormat where
  | pretty
  | compact
  | json
deriving DecidableEq, Repr

/-- The name of a format. -/
def LogFormat.name : LogFormat → String
  | .pretty => "pretty"
  | .compact => "compact"
  | .json => "json"

/-- The format of a given name. -/
def LogFormat.ofName? (name : String) : Option LogFormat :=
  [LogFormat.pretty, .compact, .json].find? (·.name = name)

/-- Where scripts are sent, and how many seconds an answer may take. -/
structure ExecutionSettings where
  endpoint : String
  timeoutSeconds : Nat
deriving DecidableEq, Repr

/-- The sample text of scripts whose input has no label. -/
structure CompilerSettings where
  sampleText : String
deriving DecidableEq, Repr

/-- What is logged, and how. -/
structure LoggingSettings where
  level : String
  format : LogFormat
  ansi : Bool
deriving DecidableEq, Repr

/-- The settings of the program. -/
structure Settings where
  execution : ExecutionSettings
  compiler : CompilerSettings
  logging : LoggingSettings
deriving DecidableEq, Repr

namespace Settings

/-- The settings when nothing is set. -/
def standard : Settings where
  execution := ⟨"http://localhost:8000/api", 30⟩
  compiler := ⟨defaultSampleText⟩
  logging := ⟨"info", .pretty, true⟩

/-- The levels of logging. -/
def levels : List String := ["trace", "debug", "info", "warn", "error"]

/-- Why settings cannot be used. -/
inductive Invalid where
  | unknownLevel (level : String)
  | noTimeout
  | noUrl (endpoint : String)
deriving DecidableEq, Repr

/-- The message about settings that cannot be used. -/
def Invalid.message : Invalid → String
  | .unknownLevel level =>
    "Invalid log level '" ++ level ++ "'. Must be one of: " ++ ", ".intercalate levels
  | .noTimeout => "execution.timeout_secs must be greater than zero"
  | .noUrl endpoint => "execution.endpoint '" ++ endpoint ++ "' must be an http(s) URL"

/-- Whether an endpoint begins like the address of a service. -/
def isUrl (endpoint : String) : Bool :=
  "http://".toList.isPrefixOf endpoint.toList || "https://".toList.isPrefixOf endpoint.toList

/-- The first reason why settings cannot be used, if there is one. -/
def invalid? (s : Settings) : Option Invalid :=
  if s.logging.level ∉ levels then some (.unknownLevel s.logging.level)
  else if s.execution.timeoutSeconds = 0 then some .noTimeout
  else if !isUrl s.execution.endpoint then some (.noUrl s.execution.endpoint)
  else none

end Settings

end TextPipeline
