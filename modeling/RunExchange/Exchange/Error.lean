import RunExchange.Document
import RunExchange.Files.Error
/-!
# Exchange.Error -- why an exchange operation fails

A channel error names an input or an output outside the declared ones.  A
worker that gives up reports its own reason.  A resource that cannot be read or
written, and one whose text is no document of its type, is named with the cause.
-/

namespace RunExchange

set_option autoImplicit false

inductive ExchangeError
  /-- An input that is only required if connected was read without a default. -/
  | inputNotConnected (name : String)
  /-- An input is neither supplied nor required if connected. -/
  | inputNotDefined (name : String)
  | outputNotDefined (name : String)
  | missingState (name : String)
  /-- The worker gave up. -/
  | failed (reason : String)
  | io (resource : Resource) (cause : IoError)
  | invalid (resource : Resource) (fault : Json.Fault)
deriving DecidableEq

namespace ExchangeError

def message : ExchangeError → String
  | .inputNotConnected name => s!"Input {name} not connected."
  | .inputNotDefined name => s!"Input '{name}' is not defined or it has no value"
  | .outputNotDefined name => s!"Output '{name}' is not defined"
  | .missingState name => s!"No state variable stored for '{name}'"
  | .failed reason => reason
  | .io resource cause => s!"IO error on {resource.name}: {cause.message}"
  | .invalid resource _ => s!"Invalid JSON in {resource.name}"

/-- Whether the error names a channel outside its declared set. -/
def isChannelError : ExchangeError → Bool
  | .inputNotConnected _ | .inputNotDefined _ | .outputNotDefined _ => true
  | _ => false

/-- Whether the worker gave up on purpose. -/
def isFailure : ExchangeError → Bool
  | .failed _ => true
  | _ => false

/-- The message and, if the file system caused the error, its message. -/
def chain (error : ExchangeError) : List String :=
  match error with
  | .io _ cause => [error.message, cause.message]
  | _ => [error.message]

end ExchangeError

end RunExchange
