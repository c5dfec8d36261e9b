import RunExchange.Json.Printer
import RunExchange.Logging.Settings
import RunExchange.Text.Visible
/-!
# Logging.Event -- what operations report while they work

An operation returns the events that it emitted, in order.  An event has a
severity, the part of the program that it comes from, a message and numbers.
Its line is `LEVEL target: message field=value`.  In a log of a format for
readers the message is visible (`Text.visible`), and the pretty format writes the
fields as `message, field: value`; the JSON format writes an object.
-/

namespace RunExchange

set_option autoImplicit false

/-- The parts of the program that emit events. -/
inductive Origin
  | configuration
  | startup
  | store
  | exchange
  | host
  | program
  | commands
deriving DecidableEq

/-- The name of a part in the log. -/
def Origin.target : Origin → String
  | .configuration => "exchange_config::loader"
  | .startup => "exchange_ipc::loader"
  | .store => "exchange_ipc::store"
  | .exchange => "exchange_ipc::exchange"
  | .host => "exchange_ipc::host"
  | .program => "channel_exchange"
  | .commands => "channel_exchange::commands"

structure Event where
  severity : Severity
  origin : Origin
  message : String
  fields : List (String × Int) := []
deriving DecidableEq

namespace Event

/-- Whether an event is at least as severe as `level`. -/
def passes (level : Severity) (event : Event) : Bool :=
  event.severity.rank ≤ level.rank

/-- The event with its message as a terminal shows it. -/
def shown (event : Event) : Event := { event with message := Text.visible event.message }

/-- The line of an event, each field after the separator `before` and with
`between` its name and its value. -/
def lineWith (before between : String) (event : Event) : String :=
  event.severity.label ++ " " ++ event.origin.target ++ ": " ++ event.message ++
    String.join (event.fields.map fun field => before ++ field.1 ++ between ++ toString field.2)

def line (event : Event) : String := event.lineWith " " "="

def prettyLine (event : Event) : String := event.lineWith ", " ": "

def toJson (event : Event) : Json :=
  .object
    [("level", .text event.severity.label),
     ("fields", .object (("message", .text event.message) ::
        event.fields.map fun field => (field.1, Json.ofInt64 (Int64.ofInt field.2)))),
     ("target", .text event.origin.target)]

/-- An event as it stands in a log of a format. -/
def lineIn (format : LogFormat) (event : Event) : String :=
  match format with
  | .text | .compact => event.shown.line
  | .pretty => event.shown.prettyLine
  | .json => event.toJson.compact

end Event

end RunExchange
