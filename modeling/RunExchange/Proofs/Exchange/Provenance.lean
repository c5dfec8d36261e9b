import Mathlib.Tactic
import RunExchange.Proofs.Exchange.Effects
/-!
# Proofs.Exchange.Provenance -- where the values in an exchange come from

A value comes into an exchange with the documents that are loaded, as a value that
the worker writes, or as a default that the worker supplies for what it reads.  Work
is a program that chooses each operation by the answers to those before it.  It
passes on what it was given if every value that it writes came in an earlier answer
(`Program.PassesOn`).

Such work adds nothing to an exchange but defaults that it gets back: whatever holds
of all values that were there before and of these defaults holds of all values in the
end (`Holds.work`).
-/

namespace RunExchange

set_option autoImplicit false

/-! ## Programs -/

/-- Work that chooses its operations by the answers that it gets. -/
inductive Program (α : Type)
  | finish (result : Except ExchangeError α)
  /-- Carry out an operation and go on with its answer, which may be an error. -/
  | call (operation : Operation) (next : Except ExchangeError Answer → Program α)

namespace Program

variable {α : Type}

def work : Program α → Action Exchange ExchangeError α
  | .finish result => Action.lift result
  | .call operation next => fun exchange =>
      let first := Exchange.perform operation exchange
      let later := (next first.result).work first.state
      ⟨later.result, later.state, first.events ++ later.events⟩

/-- The operations that a program carries out on an exchange, with their answers. -/
def calls : Program α → Exchange → List (Operation × Except ExchangeError Answer)
  | .finish _, _ => []
  | .call operation next, exchange =>
      let first := Exchange.perform operation exchange
      (operation, first.result) :: (next first.result).calls first.state

def operations (program : Program α) (exchange : Exchange) : List Operation :=
  (program.calls exchange).map (·.1)

theorem state_work (program : Program α) (exchange : Exchange) :
    (program.work exchange).state = exchange.performAll (program.operations exchange) := by
  induction program generalizing exchange with
  | finish result => cases result <;> rfl
  | call operation next ih => exact ih _ _

end Program

/-! ## Values that are given -/

/-- The answer gives the worker the value: it is the value, or a table with a
variable that has it. -/
def Answer.Gives (value : Json) : Except ExchangeError Answer → Prop
  | .ok (.value given) => given = value
  | .ok (.maybe given) => given = some value
  | .ok (.values table) => ∃ name, table.find? name = some value
  | _ => False

namespace Operation

/-- The value that the operation writes to a declared output or to a variable. -/
def written? (declared : List String) : Operation → Option Json
  | .writeOutput name value => if name ∈ declared then some value else none
  | .writeState _ value => some value
  | _ => none

/-- The default that comes with a reading. -/
def default? : Operation → Option Json
  | .readInput _ default | .readState _ default => default
  | .readStateOr _ default => some default
  | _ => none

theorem written?_of_emits {declared : List String} {operation : Operation}
    {emission : String × Json} (here : emission ∈ operation.emits declared) :
    operation.written? declared = some emission.2 := by
  cases operation with
  | writeOutput name value =>
      rw [emits] at here
      split at here
      · next known =>
          obtain rfl := List.mem_singleton.1 here
          exact if_pos known
      · cases here
  | _ => cases here

end Operation

/-- Every value that is written was known before or was given by an earlier answer. -/
def WritesKnown (declared : List String) :
    (Json → Prop) → List (Operation × Except ExchangeError Answer) → Prop
  | _, [] => True
  | known, (operation, answer) :: later =>
      (∀ value, operation.written? declared = some value → known value) ∧
        WritesKnown declared (fun value => known value ∨ Answer.Gives value answer) later

namespace Program

variable {α : Type} (program : Program α) (exchange : Exchange)

/-- The program writes nothing but values that the exchange gave it. -/
def PassesOn : Prop :=
  WritesKnown exchange.outputNames (fun _ => False) (program.calls exchange)

/-- The program supplies the value as a default and gets it back. -/
def GetsBack (value : Json) : Prop :=
  ∃ call ∈ program.calls exchange, call.1.default? = some value ∧ Answer.Gives value call.2

end Program

/-! ## One operation -/

namespace Exchange

/-- All values in the exchange are good. -/
structure Holds (good : Json → Prop) (exchange : Exchange) : Prop where
  inputs : ∀ name value, exchange.inputs.find? name = some value → good value
  outputs : ∀ name values, exchange.outputs.find? name = some values →
    ∀ value ∈ values, good value
  state : ∀ name value, exchange.state.find? name = some value → good value

theorem Holds.mono {good better : Json → Prop} {exchange : Exchange}
    (held : exchange.Holds better) (implies : ∀ value, better value → good value) :
    exchange.Holds good where
  inputs name value found := implies value (held.inputs name value found)
  outputs name values found value here := implies value (held.outputs name values found value here)
  state name value found := implies value (held.state name value found)

section Reading

variable {exchange : Exchange} {name : String} {default : Option Json} {value : Json}

theorem eq_of_supplied (given : supplied default = some value) : default = some value :=
  (Option.filter_eq_some_iff.1 given).1

/-- An input that was read is the default or was supplied by the host. -/
theorem readInput_cases (read : exchange.readInput name default = .ok value) :
    default = some value ∨ exchange.inputs.find? name = some value := by
  rw [readInput] at read
  split at read
  · split at read
    · cases read
    · next given =>
        cases read
        exact .inl (eq_of_supplied given)
  · split at read
    · cases read
    · next found =>
        cases read
        exact .inr found

/-- A variable that was read is the default or was there. -/
theorem readState_cases (read : (exchange.readState name default).1 = some value) :
    default = some value ∨ exchange.state.find? name = some value := by
  rw [readState] at read
  split at read
  · next found =>
      cases read
      exact .inr found
  · split at read
    · cases read
    · next given =>
        cases read
        exact .inl (eq_of_supplied given)

/-- A default that is stored is given back. -/
theorem readState_of_stores {stored : String × Json}
    (here : stored ∈ Operation.storesDefault exchange.state name default) :
    (exchange.readState name default).1 = some stored.2 := by
  rw [Operation.storesDefault] at here
  split at here
  · next value absent given =>
      obtain rfl := List.mem_singleton.1 here
      rw [readState, absent, given]
  · cases here

/-- The answer to a change gives no value. -/
theorem not_gives_change (result : Except ExchangeError Exchange) :
    ¬ Answer.Gives value (change result exchange).result := by
  cases result <;> exact id

end Reading

/-- A variable that an operation stores has the value that is written, or the one
that is given back. -/
theorem written_or_given {operation : Operation} {exchange : Exchange} {stored : String × Json}
    (here : stored ∈ operation.stores exchange.state) :
    operation.written? exchange.outputNames = some stored.2 ∨
      Answer.Gives stored.2 (perform operation exchange).result := by
  cases operation with
  | writeState name value =>
      obtain rfl := List.mem_singleton.1 here
      exact .inl rfl
  | readState name default => exact .inr (readState_of_stores here)
  | readStateOr name default => exact .inr (readState_of_stores here)
  | _ => cases here

namespace Holds

variable {good : Json → Prop} {exchange : Exchange} (held : exchange.Holds good)
include held

/-- **What an operation gives is good**, unless it is a default that is not. -/
theorem gives {operation : Operation} {value : Json}
    (back : operation.default? = some value → good value)
    (given : Answer.Gives value (Exchange.perform operation exchange).result) : good value := by
  cases operation with
  | readInput name default =>
      change Answer.Gives value
        (answer ((exchange.readInput name default).map .value) exchange).result at given
      cases read : exchange.readInput name default with
      | error error =>
          rw [read] at given
          exact given.elim
      | ok found =>
          rw [read] at given
          obtain rfl : found = value := given
          exact (readInput_cases read).elim back (held.inputs name found)
  | readState name default => exact (readState_cases given).elim back (held.state name value)
  | readStateOr name default => exact (readState_cases given).elim back (held.state name value)
  | requireState name =>
      change Answer.Gives value
        (answer ((exchange.requireState name).map .value) exchange).result at given
      rw [requireState] at given
      split at given
      · exact given.elim
      · next found here =>
          obtain rfl : found = value := given
          exact held.state name found here
  | stateTable =>
      obtain ⟨name, found⟩ := given
      exact held.state name value found
  | closeOutput _ | writeOutput _ _ | leaveIndefinite _ | closeAllOutputs | writeState _ _ =>
      exact (not_gives_change _ given).elim
  | inputNames | suppliedInputNames | outputNames | runNumber | fail _ => exact given.elim

/-- **An operation that writes good values leaves only good values.** -/
theorem perform {operation : Operation}
    (written : ∀ value, operation.written? exchange.outputNames = some value → good value)
    (given : ∀ value, Answer.Gives value (Exchange.perform operation exchange).result →
      good value) : (Exchange.perform operation exchange).state.Holds good := by
  rw [state_perform]
  constructor
  case inputs => exact held.inputs
  case outputs =>
    refine forall_emitAll ?_ held.outputs
    intro emission here
    exact written emission.2 (Operation.written?_of_emits here)
  case state =>
    refine forall_storeAll ?_ held.state
    intro stored here
    exact (written_or_given here).elim (written stored.2) (given stored.2)

/-! ## Runs -/

/-- **A program that passes on what it was given adds nothing of its own** but defaults
that it gets back. -/
theorem work {α : Type} {program : Program α} {known : Json → Prop}
    (fits : ∀ value, known value → good value)
    (passes : WritesKnown exchange.outputNames known (program.calls exchange))
    (back : ∀ value, program.GetsBack exchange value → good value) :
    (program.work exchange).state.Holds good := by
  induction program generalizing exchange known with
  | finish result => cases result <;> exact held
  | call operation next ih =>
      obtain ⟨written, later⟩ := passes
      have given : ∀ value, Answer.Gives value (Exchange.perform operation exchange).result →
          good value := by
        intro value given
        refine held.gives (fun supplied => ?_) given
        exact back value ⟨_, List.mem_cons_self, supplied, given⟩
      have same : (Exchange.perform operation exchange).state.outputNames =
          exchange.outputNames := by
        rw [state_perform]
      rw [← same] at later
      refine ih _ (held.perform (fun value here => fits value (written value here)) given) ?_ later ?_
      · intro value either
        exact either.elim (fits value) (given value)
      · rintro value ⟨call, there, supplied⟩
        exact back value ⟨call, List.mem_cons_of_mem _ there, supplied⟩

end Holds

end Exchange

end RunExchange
