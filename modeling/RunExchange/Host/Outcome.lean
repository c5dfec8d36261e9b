import RunExchange.Store
/-!
# Host.Outcome -- what a worker left behind

An outcome holds the contents of the four results.  As a document it is a record
of which no field may be missing.  `collect` reads and decodes the results one
after the other; the first one that is missing or malformed is the error.
-/

namespace RunExchange

set_option autoImplicit false

open Json (Shape)

structure Outcome where
  outputs : Emissions
  closed : List String
  state : Values
  indefinite : List String

namespace Outcome

def fields : List (String × Shape) :=
  [("outputs", .table (.list .any)), ("closed", .list .text), ("state", .table .any),
   ("indefinite", .list .text)]

instance : Document Outcome where
  shape := .record true fields
  toJson outcome := .object
    [("outputs", Document.toJson outcome.outputs), ("closed", Document.toJson outcome.closed),
     ("state", Document.toJson outcome.state), ("indefinite", Document.toJson outcome.indefinite)]
  ofJson? record := do
    let outputs ← Document.ofJson? (← record.member? "outputs")
    let closed ← Document.ofJson? (← record.member? "closed")
    let state ← Document.ofJson? (← record.member? "state")
    let indefinite ← Document.ofJson? (← record.member? "indefinite")
    return { outputs, closed, state, indefinite }

/-- Read the results. -/
def collect {σ : Type} [Store σ] (store : σ) : Except ExchangeError Outcome := do
  let outputs ← Store.fetch store .outputValues
  let closed ← Store.fetch store .closeOutputs
  let state ← Store.fetch store .stateOutput
  let indefinite ← Store.fetch store .indefiniteOutputs
  return { outputs, closed, state, indefinite }

/-- The last value emitted on an output. -/
def lastValue (outcome : Outcome) (name : String) : Option Json :=
  (outcome.outputs.find? name).bind List.getLast?

def isClosed (outcome : Outcome) (name : String) : Bool := outcome.closed.contains name

def isIndefinite (outcome : Outcome) (name : String) : Bool := outcome.indefinite.contains name

end Outcome

end RunExchange
