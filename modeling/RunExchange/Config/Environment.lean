import RunExchange.Config.Settings
import RunExchange.Files.Tree
import RunExchange.Logging.Event
/-!
# Config.Environment -- overriding settings by environment variables

An environment maps variables to bytes; one whose bytes are no UTF-8 counts as
unset.  Three variables, whose names begin with a common word and an underscore,
override the working directory, the level and the format, in this order: the
first one with an unusable value is the error.  A blank working directory is
unusable; levels and formats are read in any case.
-/

namespace RunExchange

set_option autoImplicit false

/-- The variables that are set, with their bytes. -/
abbrev Environment := List (String × ByteArray)

/-- The text of a variable. -/
def Environment.text? (environment : Environment) (name : String) : Option String :=
  (environment.lookup name).bind String.fromUTF8?

namespace Settings

/-- What the names of the variables begin with unless stated otherwise. -/
def defaultStem : String := "CHANNEL_EXCHANGE"

/-- The text of the variable of a setting. -/
def override? (environment : Environment) (stem setting : String) : Option String :=
  environment.text? (stem ++ "_" ++ setting)

def overrideWorkingDir (environment : Environment) (stem : String) (settings : Settings) :
    Except ConfigError Settings :=
  match override? environment stem "WORKING_DIR" with
  | none => .ok settings
  | some text =>
      if Text.isBlank text then .error (.environment .blankWorkingDir)
      else .ok { settings with layout := { settings.layout with workingDir := text } }

def overrideLevel (environment : Environment) (stem : String) (settings : Settings) :
    Except ConfigError Settings :=
  match override? environment stem "LOG_LEVEL" with
  | none => .ok settings
  | some text => do
      let level ← (Severity.ofText text).mapError fun _ => .environment (.unknownLevel text)
      return { settings with logging := { settings.logging with level } }

def overrideFormat (environment : Environment) (stem : String) (settings : Settings) :
    Except ConfigError Settings :=
  match override? environment stem "LOG_FORMAT" with
  | none => .ok settings
  | some text => do
      let format ← (LogFormat.ofText text).mapError fun _ => .environment (.unknownFormat text)
      return { settings with logging := { settings.logging with format } }

/-- Override settings by the variables that are set. -/
def applyOverrides (environment : Environment) (stem : String) (settings : Settings) :
    Except ConfigError Settings := do
  let settings ← overrideWorkingDir environment stem settings
  let settings ← overrideLevel environment stem settings
  overrideFormat environment stem settings

/-- Override settings and check them. -/
def complete (environment : Environment) (stem : String) (settings : Settings) :
    Except ConfigError Settings := do
  let settings ← applyOverrides environment stem settings
  settings.validate
  return settings

/-- The configuration of an environment without a file. -/
def ofEnvironment (environment : Environment) (stem : String) : Except ConfigError Settings :=
  complete environment stem standard

/-- What is reported before a configuration file is read. -/
def loading (path : Path) : Event where
  severity := .debug
  origin := .configuration
  message := s!"Loading configuration from {Text.lossy path}"

/-- The configuration of a file. -/
def ofFile (tree : FileTree) (environment : Environment) (stem : String) (path : Path) :
    Except ConfigError Settings := do
  let text ← (tree.readText path).mapError .unreadable
  match ofText? text with
  | none => .error .unparsable
  | some settings => complete environment stem settings

/-- The configuration of a file, if one is given. -/
def load (tree : FileTree) (environment : Environment) (stem : String) (path : Option Path) :
    Except ConfigError Settings :=
  match path with
  | none => ofEnvironment environment stem
  | some path => ofFile tree environment stem path

/-- What loading reports. -/
def loadEvents (path : Option Path) : List Event :=
  path.toList.map loading

end Settings

end RunExchange
