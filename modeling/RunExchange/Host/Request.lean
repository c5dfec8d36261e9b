import RunExchange.Exchange.Worker
/-!
# Host.Request -- what the host hands to a worker

A request holds the contents of the five initial resources.  As a document it is
a record of which every field may be missing.  `stage` writes the resources one
after the other and stops at the first failure; the declared outputs are written
before the state.
-/

namespace RunExchange

set_option autoImplicit false

open Json (Shape)

structure Request where
  inputs : Values
  requiredIfConnected : List String
  outputNames : List String
  state : Values
  runNumber : Int64

namespace Request

/-- The request of a document without fields. -/
def standard : Request := ⟨∅, [], [], ∅, unknownRunNumber⟩

instance : Inhabited Request := ⟨standard⟩

/-- A field of a record, or a default if the record does not have it. -/
def field? {α : Type} [Document α] (record : Json) (name : String) (default : α) : Option α :=
  match record.member? name with
  | none => some default
  | some value => Document.ofJson? value

def fields : List (String × Shape) :=
  [("inputs", .table .any), ("required_if_connected", .list .text),
   ("output_names", .list .text), ("state", .table .any), ("run_number", .integer)]

instance : Document Request where
  shape := .record false fields
  toJson request := .object
    [("inputs", Document.toJson request.inputs),
     ("required_if_connected", Document.toJson request.requiredIfConnected),
     ("output_names", Document.toJson request.outputNames),
     ("state", Document.toJson request.state),
     ("run_number", Document.toJson request.runNumber)]
  ofJson? record := do
    let inputs ← field? record "inputs" standard.inputs
    let requiredIfConnected ← field? record "required_if_connected" standard.requiredIfConnected
    let outputNames ← field? record "output_names" standard.outputNames
    let state ← field? record "state" standard.state
    let runNumber ← field? record "run_number" standard.runNumber
    return { inputs, requiredIfConnected, outputNames, state, runNumber }

/-- The summary of a request that was staged. -/
def staged (request : Request) : Event where
  severity := .debug
  origin := .host
  message := "Exchange staged"
  fields :=
    [("inputs", request.inputs.size), ("outputs", request.outputNames.length),
     ("run_number", request.runNumber.toInt)]

/-- Write the initial resources. -/
def stage {σ : Type} [Store σ] (request : Request) : Action σ ExchangeError Unit := do
  Store.save .inputValues request.inputs
  Store.save .requiredIfConnected request.requiredIfConnected
  Store.save .declaredOutputs request.outputNames
  Store.save .stateVariables request.state
  Store.save .runNumber request.runNumber
  Action.emit request.staged

end Request

end RunExchange
