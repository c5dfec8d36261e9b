import Mathlib.Tactic
import RunExchange.Proofs.Exchange.Delivery
/-!
# Proofs.Exchange.Variables -- state variables in a table of their own

The operations on the state need nothing but the table of state variables:
`consult` says what each of them answers and what it leaves in the table, and that
the others leave it alone.  An exchange does the same with its state
(`perform_consult`), so a run of operations does with it what the table does by
itself (`calls_consultAll`).

A variable keeps its value until it is written (`find?_consultAll`).
-/

namespace RunExchange

set_option autoImplicit false

namespace Operation

/-- The value of a variable and the table after the reading.  A default that is
not `null` is stored if there was nothing. -/
def consultOr (state : Values) (name : String) (default : Option Json) : Option Json × Values :=
  match state.find? name, Exchange.supplied default with
  | some value, _ => (some value, state)
  | none, some value => (some value, state.insert name value)
  | none, none => (none, state)

/-- What a table of variables answers to an operation, if that is about the
state, and the table after it. -/
def consult (state : Values) : Operation → Option (Except ExchangeError Answer) × Values
  | .writeState name value => (some (.ok .done), state.insert name value)
  | .readState name default =>
      let read := consultOr state name default
      (some (.ok (.maybe read.1)), read.2)
  | .readStateOr name default =>
      let read := consultOr state name (some default)
      (some (.ok (.maybe read.1)), read.2)
  | .requireState name =>
      match state.find? name with
      | some value => (some (.ok (.value value)), state)
      | none => (some (.error (.missingState name)), state)
  | .stateTable => (some (.ok (.values state)), state)
  | _ => (none, state)

/-- The answers of a table to the operations on the state among some operations,
and the table after them. -/
def consultAll : List Operation → Values → List (Operation × Except ExchangeError Answer) × Values
  | [], state => ([], state)
  | operation :: operations, state =>
      let first := operation.consult state
      let later := consultAll operations first.2
      ((first.1.map (operation, ·)).toList ++ later.1, later.2)

/-- Whether an operation reads or writes the state. -/
def concernsState : Operation → Bool
  | .writeState _ _ | .readState _ _ | .readStateOr _ _ | .requireState _ | .stateTable => true
  | _ => false

theorem isSome_consult (operation : Operation) (state : Values) :
    (operation.consult state).1.isSome = operation.concernsState := by
  cases operation with
  | requireState name =>
      rw [consult]
      cases state.find? name <;> rfl
  | _ => rfl

theorem consultAll_append (operations more : List Operation) (state : Values) :
    consultAll (operations ++ more) state =
      ((consultAll operations state).1 ++ (consultAll more (consultAll operations state).2).1,
        (consultAll more (consultAll operations state).2).2) := by
  induction operations generalizing state with
  | nil => rfl
  | cons operation operations ih =>
      rw [List.cons_append, consultAll, ih, consultAll, List.append_assoc]

/-! ## Variables that are not written -/

theorem find?_consultOr {state : Values} {name : String} {value : Json}
    (held : state.find? name = some value) (other : String) (default : Option Json) :
    (consultOr state other default).2.find? name = some value := by
  rw [consultOr]
  split
  · exact held
  · next absent _ =>
      have apart : name ≠ other := by
        rintro rfl
        rw [held] at absent
        cases absent
      rw [Table.find?_insert, if_neg apart]
      exact held
  · exact held

theorem find?_consult {state : Values} {name : String} {value : Json}
    (held : state.find? name = some value) {operation : Operation}
    (unwritten : ∀ other, operation ≠ .writeState name other) :
    (operation.consult state).2.find? name = some value := by
  cases operation with
  | writeState target other =>
      have apart : name ≠ target := by
        rintro rfl
        exact unwritten other rfl
      show (state.insert target other).find? name = _
      rw [Table.find?_insert, if_neg apart]
      exact held
  | readState target default => exact find?_consultOr held target default
  | readStateOr target default => exact find?_consultOr held target (some default)
  | requireState target =>
      rw [consult]
      split <;> exact held
  | _ => exact held

/-- **A variable that nothing writes keeps its value.** -/
theorem find?_consultAll {operations : List Operation} {state : Values} {name : String}
    {value : Json} (held : state.find? name = some value)
    (unwritten : ∀ other, .writeState name other ∉ operations) :
    (consultAll operations state).2.find? name = some value := by
  induction operations generalizing state with
  | nil => exact held
  | cons operation operations ih =>
      refine ih (find?_consult held fun other same => ?_) fun other there => ?_
      · exact unwritten other (same ▸ List.mem_cons_self)
      · exact unwritten other (List.mem_cons_of_mem _ there)

/-- A variable has in the end what was last written to it. -/
theorem find?_last_written {after : List Operation} {name : String} {value : Json}
    (last : ∀ other, .writeState name other ∉ after) (before : List Operation) (state : Values) :
    (consultAll (before ++ .writeState name value :: after) state).2.find? name = some value := by
  rw [consultAll_append, consultAll]
  refine find?_consultAll ?_ last
  exact (Table.find?_insert ..).trans (if_pos rfl)

end Operation

/-! ## The state of an exchange -/

namespace Exchange

theorem readState_eq (exchange : Exchange) (name : String) (default : Option Json) :
    (exchange.readState name default).1 =
        (Operation.consultOr exchange.state name default).1 ∧
      (exchange.readState name default).2.state =
        (Operation.consultOr exchange.state name default).2 := by
  rw [readState, Operation.consultOr]
  cases exchange.state.find? name with
  | some value => exact ⟨rfl, rfl⟩
  | none => cases supplied default <;> exact ⟨rfl, rfl⟩

/-- **An exchange treats its state as a table of its own.** -/
theorem perform_consult (operation : Operation) (exchange : Exchange) :
    (perform operation exchange).state.state = (operation.consult exchange.state).2 ∧
      ∀ answer, (operation.consult exchange.state).1 = some answer →
        (perform operation exchange).result = answer := by
  cases operation with
  | writeState name value =>
      refine ⟨rfl, ?_⟩
      rintro answer ⟨⟩
      rfl
  | readState name default =>
      obtain ⟨answered, left⟩ := exchange.readState_eq name default
      refine ⟨left, ?_⟩
      rintro answer ⟨⟩
      exact congrArg (Except.ok ∘ Answer.maybe) answered
  | readStateOr name default =>
      obtain ⟨answered, left⟩ := exchange.readState_eq name (some default)
      refine ⟨left, ?_⟩
      rintro answer ⟨⟩
      exact congrArg (Except.ok ∘ Answer.maybe) answered
  | requireState name =>
      show (answer ((exchange.requireState name).map .value) exchange).state.state = _ ∧
        ∀ other, _ → (answer ((exchange.requireState name).map .value) exchange).result = other
      rw [requireState, Operation.consult]
      cases exchange.state.find? name with
      | none =>
          refine ⟨rfl, ?_⟩
          rintro answer ⟨⟩
          rfl
      | some value =>
          refine ⟨rfl, ?_⟩
          rintro answer ⟨⟩
          rfl
  | stateTable =>
      refine ⟨rfl, ?_⟩
      rintro answer ⟨⟩
      rfl
  | _ =>
      refine ⟨?_, nofun⟩
      rw [state_perform]
      rfl

end Exchange

/-- **A run of operations does with the state what a table does by itself.** -/
theorem Script.calls_consultAll (operations : List Operation) (exchange : Exchange) :
    (Script.calls operations exchange).filter (·.1.concernsState) =
        (Operation.consultAll operations exchange.state).1 ∧
      (exchange.performAll operations).state =
        (Operation.consultAll operations exchange.state).2 := by
  induction operations generalizing exchange with
  | nil => exact ⟨rfl, rfl⟩
  | cons operation operations ih =>
      obtain ⟨left, answered⟩ := Exchange.perform_consult operation exchange
      obtain ⟨calls, state⟩ := ih (Exchange.perform operation exchange).state
      have concerned := operation.isSome_consult exchange.state
      rw [Script.calls_cons, Exchange.performAll_cons, Operation.consultAll]
      rw [left] at calls state
      refine ⟨?_, state⟩
      cases consulted : (operation.consult exchange.state).1 with
      | none =>
          rw [consulted] at concerned
          rw [List.filter_cons_of_neg (by simp [← concerned]), calls]
          rfl
      | some answer =>
          rw [consulted] at concerned
          rw [List.filter_cons_of_pos (by simp [← concerned]), calls, answered answer consulted]
          rfl

end RunExchange
