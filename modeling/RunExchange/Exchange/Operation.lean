import RunExchange.Exchange.Basic
/-!
# Exchange.Operation -- the operations as data

Every call that a worker can make, and its answer.  `Exchange.perform` carries
out one operation.  A `Script` is a list of operations of which some may fail
without ending the work; `Script.run` carries it out and keeps the answers.
-/

namespace RunExchange

set_option autoImplicit false

inductive Operation
  | readInput (name : String) (default : Option Json)
  | closeOutput (name : String)
  | writeOutput (name : String) (value : Json)
  | leaveIndefinite (name : String)
  | closeAllOutputs
  | inputNames
  | suppliedInputNames
  | outputNames
  | writeState (name : String) (value : Json)
  | readState (name : String) (default : Option Json)
  /-- Another spelling of `readState`, which warns that it is deprecated. -/
  | readStateOr (name : String) (default : Json)
  | requireState (name : String)
  | stateTable
  | runNumber
  /-- Give up, with a reason. -/
  | fail (reason : String)

inductive Answer
  | done
  | value (value : Json)
  | maybe (value : Option Json)
  | names (names : List String)
  | values (values : Values)
  | number (number : Int64)

/-- The warning of the deprecated spelling. -/
def deprecation : Event where
  severity := .warn
  origin := .exchange
  message := "The method 'read_state_variable_default' is deprecated. Please use 'read_state_variable(name, default)'."

namespace Exchange

/-- The answer of an operation that only looks at the exchange. -/
def answer (result : Except ExchangeError Answer) : Action Exchange ExchangeError Answer :=
  Action.lift result

/-- Take over an exchange that was changed, unless the change failed. -/
def change (result : Except ExchangeError Exchange) : Action Exchange ExchangeError Answer :=
  fun exchange =>
    match result with
    | .error error => ⟨.error error, exchange, []⟩
    | .ok changed => ⟨.ok .done, changed, []⟩

/-- Carry out an operation. -/
def perform (operation : Operation) : Action Exchange ExchangeError Answer := fun exchange =>
  match operation with
  | .readInput name default => answer ((exchange.readInput name default).map .value) exchange
  | .closeOutput name => change (exchange.closeOutput name) exchange
  | .writeOutput name value => change (exchange.writeOutput name value) exchange
  | .leaveIndefinite name => change (exchange.leaveIndefinite name) exchange
  | .closeAllOutputs => change exchange.closeAllOutputs exchange
  | .inputNames => answer (.ok (.names exchange.inputNames)) exchange
  | .suppliedInputNames => answer (.ok (.names exchange.suppliedInputNames)) exchange
  | .outputNames => answer (.ok (.names exchange.outputNames)) exchange
  | .writeState name value => change (.ok (exchange.writeState name value)) exchange
  | .readState name default =>
      let read := exchange.readState name default
      ⟨.ok (.maybe read.1), read.2, []⟩
  | .readStateOr name default =>
      let read := exchange.readState name (some default)
      ⟨.ok (.maybe read.1), read.2, [deprecation]⟩
  | .requireState name => answer ((exchange.requireState name).map .value) exchange
  | .stateTable => answer (.ok (.values exchange.state)) exchange
  | .runNumber => answer (.ok (.number exchange.runNumber)) exchange
  | .fail reason => answer (.error (.failed reason)) exchange

/-- The exchange after operations of which failures are ignored. -/
def performAll (operations : List Operation) (exchange : Exchange) : Exchange :=
  operations.foldl (fun exchange operation => (perform operation exchange).state) exchange

end Exchange

/-- An operation of a script; a failure of one that is not `caught` ends the
work. -/
structure Step where
  operation : Operation
  caught : Bool

abbrev Script := List Step

/-- How a script went: the answers of its steps, each with the exchange after
it, the error that ended it, and what it leaves. -/
structure Transcript where
  answers : List (Except ExchangeError Answer × Exchange)
  failure : Option ExchangeError
  exchange : Exchange
  events : List Event

namespace Script

/-- Carry out a script. -/
def run : Script → Exchange → Transcript
  | [], exchange => ⟨[], none, exchange, []⟩
  | step :: rest, exchange =>
      let report := Exchange.perform step.operation exchange
      let continued :=
        let later := run rest report.state
        { later with
          answers := (report.result, report.state) :: later.answers
          events := report.events ++ later.events }
      match report.result with
      | .ok _ => continued
      | .error error =>
          if step.caught then continued
          else ⟨[], some error, report.state, report.events⟩

/-- A script as work, which returns how many answers it got. -/
def work (script : Script) : Action Exchange ExchangeError Nat := fun exchange =>
  let transcript := script.run exchange
  ⟨match transcript.failure with
    | none => .ok transcript.answers.length
    | some error => .error error,
    transcript.exchange, transcript.events⟩

end Script

end RunExchange
