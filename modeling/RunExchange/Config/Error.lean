import RunExchange.Files.Error
import RunExchange.Resource
/-!
# Config.Error -- why a configuration is refused

The causes, in the order in which they are looked for: the file cannot be read,
its text is no configuration document, an environment variable has no usable
value, a setting is out of its domain.
-/

namespace RunExchange

set_option autoImplicit false

/-- What is wrong with a setting of a domain. -/
inductive Problem
  | blank (field : String)
  | notPlain (field value : String)
  | reused (resource : Resource) (fileName : String)
  | other (message : String)
deriving DecidableEq

def Problem.message : Problem → String
  | .blank field => s!"{field} cannot be empty"
  | .notPlain field value => s!"{field} must be a plain file name, got '{value}'"
  | .reused resource fileName => s!"{resource.name} reuses file name '{fileName}'"
  | .other message => message

/-- What is wrong with an environment variable. -/
inductive VariableError
  | blankWorkingDir
  | unknownLevel (value : String)
  | unknownFormat (value : String)
deriving DecidableEq

def VariableError.message : VariableError → String
  | .blankWorkingDir => "Invalid WORKING_DIR: value is empty"
  | .unknownLevel value => s!"Invalid LOG_LEVEL: {value}"
  | .unknownFormat value => s!"Invalid LOG_FORMAT: {value}"

inductive ConfigError
  | unreadable (cause : IoError)
  | unparsable
  | environment (cause : VariableError)
  | invalid (domain : String) (problem : Problem)
deriving DecidableEq

def ConfigError.message : ConfigError → String
  | .unreadable cause => s!"Failed to read config file: {cause.message}"
  | .unparsable => "Failed to parse config"
  | .environment cause => s!"Environment variable error: {cause.message}"
  | .invalid domain problem => s!"Domain configuration error in {domain}: {problem.message}"

/-- The message and, if another error caused it, the message of that. -/
def ConfigError.chain (error : ConfigError) : List String :=
  match error with
  | .unreadable cause => [error.message, cause.message]
  | _ => [error.message]

end RunExchange
