import RunExchange.Exchange.Operation
import RunExchange.Store
/-!
# Exchange.Worker -- the run of a worker

A worker loads an exchange from the initial resources, works on it, and writes
the results.

* Loading never fails.  A resource that cannot be read or is no document of its
  type is replaced by its default -- nothing, and run number -1 -- and noted; no
  resource affects the others.
* Finalizing writes the four results in order and stops at the first failure.
* A run whose work fails writes nothing and has the error of the work.
-/

namespace RunExchange

set_option autoImplicit false

/-- The number of a run for which the host gave none. -/
def unknownRunNumber : Int64 := -1

/-- What was loaded for a resource, and why it is the default, if it is. -/
structure Loaded (α : Type) where
  value : α
  problem : Option ExchangeError

namespace Loaded

variable {α β : Type}

def defaulted (loaded : Loaded α) : Bool := loaded.problem.isSome

def map (f : α → β) (loaded : Loaded α) : Loaded β := ⟨f loaded.value, loaded.problem⟩

/-- The report that a default was used. -/
def events (resource : Resource) (loaded : Loaded α) : List Event :=
  match loaded.problem with
  | none => []
  | some error =>
      [{ severity := .debug, origin := .startup,
         message := s!"Using default for {resource.name}: {error.message}" }]

/-- The resource, if its default was used. -/
def note (resource : Resource) (loaded : Loaded α) : List Resource :=
  if loaded.defaulted then [resource] else []

end Loaded

namespace Exchange

variable {σ α : Type} [Store σ]

/-- The document of a resource, or a default. -/
def loadOr [Document α] (store : σ) (resource : Resource) (default : α) : Loaded α :=
  match Store.fetch store resource with
  | .ok value => ⟨value, none⟩
  | .error error => ⟨default, some error⟩

def loadInputs (store : σ) : Loaded Values := loadOr store .inputValues ∅

def loadRequired (store : σ) : Loaded (List String) := loadOr store .requiredIfConnected []

def loadState (store : σ) : Loaded Values := loadOr store .stateVariables ∅

def loadOutputNames (store : σ) : Loaded (List String) :=
  (loadOr store .declaredOutputs (DeclaredOutputs.listed [])).map DeclaredOutputs.toNames

def loadRunNumber (store : σ) : Loaded Int64 := loadOr store .runNumber unknownRunNumber

/-- The exchange at the start of a run. -/
def load (store : σ) : Exchange where
  inputs := (loadInputs store).value
  requiredIfConnected := (loadRequired store).value
  outputNames := (loadOutputNames store).value
  outputs := ∅
  closed := []
  indefinite := []
  state := (loadState store).value
  runNumber := (loadRunNumber store).value
  defaulted :=
    (loadInputs store).note .inputValues ++
    (loadRequired store).note .requiredIfConnected ++
    (loadState store).note .stateVariables ++
    (loadOutputNames store).note .declaredOutputs ++
    (loadRunNumber store).note .runNumber

/-- What loading reports. -/
def loadEvents (store : σ) : List Event :=
  (loadInputs store).events .inputValues ++
  (loadRequired store).events .requiredIfConnected ++
  (loadState store).events .stateVariables ++
  (loadOutputNames store).events .declaredOutputs ++
  (loadRunNumber store).events .runNumber

/-- The summary of an exchange whose results were written. -/
def finalized (exchange : Exchange) : Event where
  severity := .info
  origin := .exchange
  message := "Exchange finalized"
  fields :=
    [("outputs", exchange.outputs.size), ("closed", exchange.closed.length),
     ("indefinite", exchange.indefinite.length), ("state", exchange.state.size)]

/-- Write the results. -/
def finalize (exchange : Exchange) : Action σ ExchangeError Unit := do
  Store.save .outputValues exchange.outputs
  Store.save .closeOutputs exchange.closed
  Store.save .stateOutput exchange.state
  Store.save .indefiniteOutputs exchange.indefinite
  Action.emit exchange.finalized

end Exchange

/-- Load an exchange, work on it, and write the results unless the work failed. -/
def runWorker {σ α : Type} [Store σ] (work : Action Exchange ExchangeError α) :
    Action σ ExchangeError α := fun store =>
  let worked := work (Exchange.load store)
  let events := Exchange.loadEvents store ++ worked.events
  match worked.result with
  | .error error => ⟨.error error, store, events⟩
  | .ok value =>
      let written := worked.state.finalize store
      ⟨written.result.map fun _ => value, written.state, events ++ written.events⟩

end RunExchange
