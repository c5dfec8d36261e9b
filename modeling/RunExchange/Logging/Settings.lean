/-!
# Logging.Settings -- how much is logged and in which layout

Severities are ordered from `error`, the most severe, to `trace`.  Both settings
are read from a text in any case of its letters; `warning` is another word for
`warn`.  Only the letters A to Z are folded: no other character has one of the
letters of these words as its lower case.
-/

namespace RunExchange

set_option autoImplicit false

inductive Severity
  | error
  | warn
  | info
  | debug
  | trace
deriving DecidableEq

inductive LogFormat
  | text
  | compact
  | pretty
  | json
deriving DecidableEq

/-- A text with the letters A to Z in lower case. -/
def foldCase (text : String) : String :=
  String.ofList (text.toList.map Char.toLower)

namespace Severity

/-- `error` is 0 and every less severe one is greater. -/
def rank : Severity → Nat
  | .error => 0
  | .warn => 1
  | .info => 2
  | .debug => 3
  | .trace => 4

def name : Severity → String
  | .error => "error"
  | .warn => "warn"
  | .info => "info"
  | .debug => "debug"
  | .trace => "trace"

/-- The word that opens a line of the log. -/
def label : Severity → String
  | .error => "ERROR"
  | .warn => "WARN"
  | .info => "INFO"
  | .debug => "DEBUG"
  | .trace => "TRACE"

/-- The severity of exactly this name. -/
def ofName? : String → Option Severity
  | "error" => some .error
  | "warn" => some .warn
  | "info" => some .info
  | "debug" => some .debug
  | "trace" => some .trace
  | _ => none

/-- The severity that a text names. -/
def ofText? (text : String) : Option Severity :=
  if foldCase text = "warning" then some .warn else ofName? (foldCase text)

/-- The severity that a text names, or the words that refuse it. -/
def ofText (text : String) : Except String Severity :=
  match ofText? text with
  | none => .error s!"Invalid log level: {text}"
  | some severity => .ok severity

theorem ofName?_name (severity : Severity) : ofName? severity.name = some severity := by
  cases severity <;> rfl

end Severity

namespace LogFormat

def name : LogFormat → String
  | .text => "text"
  | .compact => "compact"
  | .pretty => "pretty"
  | .json => "json"

/-- The format of exactly this name. -/
def ofName? : String → Option LogFormat
  | "text" => some .text
  | "compact" => some .compact
  | "pretty" => some .pretty
  | "json" => some .json
  | _ => none

/-- The format that a text names. -/
def ofText? (text : String) : Option LogFormat := ofName? (foldCase text)

/-- The format that a text names, or the words that refuse it. -/
def ofText (text : String) : Except String LogFormat :=
  match ofText? text with
  | none => .error s!"Invalid log format: {text}"
  | some format => .ok format

theorem ofName?_name (format : LogFormat) : ofName? format.name = some format := by
  cases format <;> rfl

end LogFormat

structure LoggingSettings where
  level : Severity := .warn
  format : LogFormat := .text
deriving DecidableEq, Inhabited

end RunExchange
