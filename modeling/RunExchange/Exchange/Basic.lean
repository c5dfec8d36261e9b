import RunExchange.Action
import RunExchange.Exchange.Error
/-!
# Exchange.Basic -- what a worker sees and does during a run

An exchange holds what the worker was given -- inputs, the names required only
if connected, the outputs it may write, the state, the run number -- and what it
has produced: emitted values, closed outputs, outputs left indefinite.

* An input that is required only if connected has the value of the default that
  the worker supplies, whatever the host supplied for it; any other input has
  its supplied value, and the default is ignored.
* Only declared outputs may be written, closed or left indefinite.  Closing and
  leaving indefinite count once; neither stops further values.
* A state variable is read with a default, which is stored if there was nothing.

A default of `null` is no default.  An operation that fails leaves the exchange
as it was.
-/

namespace RunExchange

set_option autoImplicit false

structure Exchange where
  inputs : Values
  requiredIfConnected : List String
  outputNames : List String
  outputs : Emissions
  closed : List String
  indefinite : List String
  state : Values
  runNumber : Int64
  /-- The initial resources that were not available. -/
  defaulted : List Resource

namespace Exchange

/-- An exchange without anything, of run 0. -/
def empty : Exchange where
  inputs := ∅
  requiredIfConnected := []
  outputNames := []
  outputs := ∅
  closed := []
  indefinite := []
  state := ∅
  runNumber := 0
  defaulted := []

instance : Inhabited Exchange := ⟨empty⟩

/-- The default that was supplied, `null` being none. -/
def supplied (default : Option Json) : Option Json :=
  default.filter fun value => !value.isNull

/-! ## Inputs -/

/-- The value of an input. -/
def readInput (exchange : Exchange) (name : String) (default : Option Json) :
    Except ExchangeError Json :=
  if name ∈ exchange.requiredIfConnected then
    match supplied default with
    | none => .error (.inputNotConnected name)
    | some value => .ok value
  else
    match exchange.inputs.find? name with
    | none => .error (.inputNotDefined name)
    | some value => .ok value

/-- The names with a value, then those required only if connected. -/
def inputNames (exchange : Exchange) : List String :=
  exchange.inputs.keys ++ exchange.requiredIfConnected

def suppliedInputNames (exchange : Exchange) : List String := exchange.inputs.keys

/-! ## Outputs -/

/-- A list with a name at its end, unless the name is in it already. -/
def mark (name : String) (names : List String) : List String :=
  if name ∈ names then names else names ++ [name]

/-- An exchange changed on behalf of a declared output. -/
def ifDeclared (exchange : Exchange) (name : String) (changed : Exchange) :
    Except ExchangeError Exchange :=
  if name ∈ exchange.outputNames then .ok changed else .error (.outputNotDefined name)

/-- Let an output receive no further values. -/
def closeOutput (exchange : Exchange) (name : String) : Except ExchangeError Exchange :=
  exchange.ifDeclared name { exchange with closed := mark name exchange.closed }

/-- Emit a value on an output, after the values emitted before. -/
def writeOutput (exchange : Exchange) (name : String) (value : Json) :
    Except ExchangeError Exchange :=
  exchange.ifDeclared name
    { exchange with
      outputs := exchange.outputs.alter name fun values => values.getD [] ++ [value] }

/-- Leave an output without a value on purpose. -/
def leaveIndefinite (exchange : Exchange) (name : String) : Except ExchangeError Exchange :=
  exchange.ifDeclared name { exchange with indefinite := mark name exchange.indefinite }

/-- Close outputs one after the other. -/
def closeOutputs : List String → Exchange → Except ExchangeError Exchange
  | [], exchange => .ok exchange
  | name :: rest, exchange => do closeOutputs rest (← exchange.closeOutput name)

/-- Close every declared output. -/
def closeAllOutputs (exchange : Exchange) : Except ExchangeError Exchange :=
  closeOutputs exchange.outputNames exchange

/-! ## State -/

def writeState (exchange : Exchange) (name : String) (value : Json) : Exchange :=
  { exchange with state := exchange.state.insert name value }

/-- The value of a state variable and the exchange after the reading. -/
def readState (exchange : Exchange) (name : String) (default : Option Json) :
    Option Json × Exchange :=
  match exchange.state.find? name with
  | some value => (some value, exchange)
  | none =>
      match supplied default with
      | none => (none, exchange)
      | some value => (some value, exchange.writeState name value)

/-- The value of a state variable that has to be there. -/
def requireState (exchange : Exchange) (name : String) : Except ExchangeError Json :=
  match exchange.state.find? name with
  | none => .error (.missingState name)
  | some value => .ok value

end Exchange

end RunExchange
