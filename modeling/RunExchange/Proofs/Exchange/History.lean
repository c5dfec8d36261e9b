import Mathlib
import RunExchange.Proofs.Document.Spelled
import RunExchange.Proofs.Exchange.Variables
/-!
# Proofs.Exchange.History -- what the history of a run says of the state variables

What a variable holds follows from what was done before: it has the value that was
last written to it; else the value that was loaded; else the first default that a
reading of it brought and that was not `null` (`Operation.storedAfter`).  A `null`
that was loaded or written is a value like any other, and a `null` that a reading
brings is none.

The names stand in the order in which they came, those that were loaded first, and
writing a variable does not move it (`Table.Follows`).

One operation keeps this (`find?_consult_eq`, `keys_consult`), so every run does,
and every answer about the state is the one that the history before it gives
(`state_follows_history`).
-/

namespace RunExchange

set_option autoImplicit false

namespace Operation

/-- The value that the operation writes to a variable. -/
def puts? (name : String) : Operation → Option Json
  | .writeState target value => if target = name then some value else none
  | _ => none

/-- The default that the operation brings for a variable, `null` being none. -/
def offers? (name : String) : Operation → Option Json
  | .readState target default => if target = name then Exchange.supplied default else none
  | .readStateOr target default =>
      if target = name then Exchange.supplied (some default) else none
  | _ => none

/-- The variable that has a value after the operation, because it was written or
read with a default. -/
def settles? : Operation → Option String
  | .writeState name _ => some name
  | .readState name default => (Exchange.supplied default).map fun _ => name
  | .readStateOr name default => (Exchange.supplied (some default)).map fun _ => name
  | _ => none

/-- What a variable holds after some operations: the value last written, else the
value loaded, else the first default. -/
def storedAfter (loaded : Values) (name : String) (operations : List Operation) : Option Json :=
  ((operations.filterMap (puts? name)).getLast?.or (loaded.find? name)).or
    (operations.filterMap (offers? name)).head?

end Operation

/-- The variables are those that the history gives, the loaded ones first and the
others in the order in which they came. -/
structure Table.Follows (values loaded : Values) (operations : List Operation) : Prop where
  value : ∀ name, values.find? name = Operation.storedAfter loaded name operations
  names : values.keys = loaded.keys ++
    ((operations.filterMap Operation.settles?).filter (· ∉ loaded.keys)).eraseDups

/-- The answer to an operation on the state that the history before it gives. -/
def Operation.HasAnswer (loaded : Values) (before : List Operation) :
    Operation → Except ExchangeError Answer → Prop
  | .writeState _ _, answer => answer = .ok .done
  | .readState name default, answer =>
      answer = .ok (.maybe ((storedAfter loaded name before).or (Exchange.supplied default)))
  | .readStateOr name default, answer =>
      answer =
        .ok (.maybe ((storedAfter loaded name before).or (Exchange.supplied (some default))))
  | .requireState name, answer =>
      (∀ value, storedAfter loaded name before = some value → answer = .ok (.value value)) ∧
        (storedAfter loaded name before = none → answer = .error (.missingState name))
  | .stateTable, answer =>
      ∃ values : Values, answer = .ok (.values values) ∧ values.Follows loaded before
  | _, _ => True

namespace Operation

/-! ## One operation -/

theorem find?_consultOr_eq (state : Values) (target : String) (default : Option Json)
    (name : String) :
    (consultOr state target default).2.find? name =
      (state.find? name).or (if target = name then Exchange.supplied default else none) := by
  rw [consultOr]
  split
  · next value held =>
      by_cases same : target = name
      · rw [← same, held, Option.some_or]
      · rw [if_neg same, Option.or_none]
  · next value absent given =>
      rw [Table.find?_insert, given]
      by_cases same : target = name
      · rw [← same, absent, if_pos rfl]
        rfl
      · rw [if_neg (Ne.symm same), if_neg same, Option.or_none]
  · next absent given => rw [given, ite_self, Option.or_none]

/-- **What an operation leaves in a variable.** -/
theorem find?_consult_eq (operation : Operation) (state : Values) (name : String) :
    (operation.consult state).2.find? name =
      (operation.puts? name).or ((state.find? name).or (operation.offers? name)) := by
  cases operation with
  | writeState target value =>
      refine (Table.find?_insert ..).trans ?_
      simp only [puts?, offers?, Option.or_none]
      by_cases same : target = name
      · rw [if_pos same.symm, if_pos same, Option.some_or]
      · rw [if_neg (Ne.symm same), if_neg same, Option.none_or]
  | readState target default => exact find?_consultOr_eq state target default name
  | readStateOr target default => exact find?_consultOr_eq state target (some default) name
  | requireState target =>
      rw [consult]
      split <;> exact (Option.or_none ..).symm
  | _ => exact (Option.or_none ..).symm

theorem keys_consultOr (state : Values) (name : String) (default : Option Json) :
    (consultOr state name default).2.keys =
      Exchange.markAll ((Exchange.supplied default).map fun _ => name).toList state.keys := by
  rw [consultOr]
  split
  · next value held =>
      have here : name ∈ state.keys := by
        by_contra absent
        rw [Table.find?_eq_none_iff.2 absent] at held
        cases held
      cases Exchange.supplied default with
      | none => rfl
      | some given => exact (if_pos here).symm
  · next value absent given =>
      rw [given]
      exact Table.keys_insert state name value
  · next absent given =>
      rw [given]
      rfl

/-- **No operation moves a name**, and a new one comes last. -/
theorem keys_consult (operation : Operation) (state : Values) :
    (operation.consult state).2.keys =
      Exchange.markAll operation.settles?.toList state.keys := by
  cases operation with
  | writeState name value => exact Table.keys_insert state name value
  | readState name default => exact keys_consultOr state name default
  | readStateOr name default => exact keys_consultOr state name (some default)
  | requireState name =>
      rw [consult]
      split <;> rfl
  | _ => rfl

/-! ## All operations -/

theorem storedAfter_concat (loaded : Values) (name : String) (operations : List Operation)
    (operation : Operation) :
    storedAfter loaded name (operations ++ [operation]) =
      (operation.puts? name).or
        ((storedAfter loaded name operations).or (operation.offers? name)) := by
  have one {α : Type} (read : Operation → Option α) :
      [operation].filterMap read = (read operation).toList := by
    cases found : read operation <;> simp [found]
  have last (found : Option Json) : found.toList.getLast? = found := by cases found <;> rfl
  have first (found : Option Json) : found.toList.head? = found := by cases found <;> rfl
  simp only [storedAfter, List.filterMap_append, one, List.getLast?_append, List.head?_append,
    last, first, Option.or_assoc]

theorem find?_consultAll_eq (operations : List Operation) (loaded : Values) (name : String) :
    (consultAll operations loaded).2.find? name = storedAfter loaded name operations := by
  induction operations using List.reverseRecOn with
  | nil => exact (Option.or_none ..).symm
  | append_singleton operations operation ih =>
      rw [consultAll_append, storedAfter_concat, ← ih]
      exact find?_consult_eq operation _ name

theorem keys_consultAll (operations : List Operation) (state : Values) :
    (consultAll operations state).2.keys =
      Exchange.markAll (operations.filterMap settles?) state.keys := by
  induction operations generalizing state with
  | nil => rfl
  | cons operation operations ih =>
      rw [consultAll, ih, keys_consult, ← Exchange.markAll_append]
      cases settled : operation.settles? <;> simp [settled]

/-- **A run of operations follows its history.** -/
theorem follows_consultAll (operations : List Operation) (loaded : Values) :
    (consultAll operations loaded).2.Follows loaded operations where
  value := find?_consultAll_eq operations loaded
  names := by
    rw [keys_consultAll]
    exact Exchange.markAll_of_nodup loaded.nodup _

/-! ## Answers -/

theorem consultOr_fst (state : Values) (name : String) (default : Option Json) :
    (consultOr state name default).1 = (state.find? name).or (Exchange.supplied default) := by
  rw [consultOr]
  cases state.find? name with
  | some value => rfl
  | none => cases Exchange.supplied default <;> rfl

/-- Variables that follow the history answer as it says. -/
theorem hasAnswer_consult {loaded state : Values} {before : List Operation}
    (follows : state.Follows loaded before) (operation : Operation) :
    ∀ answer, (operation.consult state).1 = some answer →
      operation.HasAnswer loaded before answer := by
  intro answer answered
  cases operation with
  | writeState name value => exact (Option.some.inj answered).symm
  | readState name default =>
      rw [HasAnswer, ← follows.value, ← consultOr_fst]
      exact (Option.some.inj answered).symm
  | readStateOr name default =>
      rw [HasAnswer, ← follows.value, ← consultOr_fst]
      exact (Option.some.inj answered).symm
  | requireState name =>
      rw [HasAnswer, ← follows.value]
      rw [consult] at answered
      split at answered
      · next value held =>
          cases answered
          rw [held]
          exact ⟨fun other same => by rw [Option.some.inj same],
            fun absent => absurd absent (Option.some_ne_none value)⟩
      · next absent =>
          cases answered
          rw [absent]
          exact ⟨fun other held => absurd held.symm (Option.some_ne_none other), fun _ => rfl⟩
  | stateTable => exact ⟨state, (Option.some.inj answered).symm, follows⟩
  | _ => cases answered

end Operation

/-- The answer in the middle of a run is that of the exchange after the operations
before it. -/
theorem Script.getElem?_calls (before after : List Operation) (operation : Operation)
    (exchange : Exchange) :
    (Script.calls (before ++ operation :: after) exchange)[before.length]? =
      some (operation, (Exchange.perform operation (exchange.performAll before)).result) := by
  induction before generalizing exchange with
  | nil => rw [List.nil_append, Script.calls_cons]; rfl
  | cons first before ih =>
      rw [List.cons_append, Script.calls_cons, List.length_cons, List.getElem?_cons_succ, ih]
      rfl

/-- **State variables follow the history of the run.**  After any operations a
variable holds what was last written to it, else what was loaded, else the first
default that was no `null`; the names stand in the order in which they came.  Every
operation on the state is answered accordingly wherever in a run it stands.  The
names that were loaded stand in the order of the document, each where it first
came. -/
theorem state_follows_history (exchange : Exchange) :
    (∀ operations, (((Script.caught operations).run exchange).exchange.state).Follows
      exchange.state operations) ∧
      (∀ before operation after, ∃ answer,
        (Script.calls (before ++ operation :: after) exchange)[before.length]? =
            some (operation, answer) ∧
          operation.HasAnswer exchange.state before answer) ∧
      ∀ (σ : Type) [Store σ] (store : σ) (text : String)
        (members : List (Option String × Json.Tree)) (values : Values),
        Store.read store .stateVariables = .ok text → (Json.Tree.object members).Spelled text →
        Document.decode text = .ok values →
        (Exchange.load store).state = values ∧
          values.keys = (Json.Tree.names members).eraseDups := by
  have follows (operations : List Operation) :
      (exchange.performAll operations).state.Follows exchange.state operations := by
    rw [(Script.calls_consultAll operations exchange).2]
    exact Operation.follows_consultAll operations exchange.state
  refine ⟨fun operations => ?_, fun before operation after => ?_, ?_⟩
  · rw [(Script.run_caught operations exchange).2.2]
    exact follows operations
  · refine ⟨_, Script.getElem?_calls before after operation exchange, ?_⟩
    obtain ⟨-, answers⟩ := Exchange.perform_consult operation (exchange.performAll before)
    cases answered : (operation.consult (exchange.performAll before).state).1 with
    | none =>
        have aside := operation.isSome_consult (exchange.performAll before).state
        rw [answered] at aside
        cases operation <;> trivial
    | some answer =>
        rw [answers answer answered]
        exact Operation.hasAnswer_consult (follows before) operation answer answered
  · intro σ _ store text members values read spelled decoded
    refine ⟨?_, keys_of_spelled spelled decoded⟩
    have fetched : Store.fetch store .stateVariables = .ok values := by
      rw [fetch_of_read read, decoded]
      rfl
    exact congrArg Loaded.value (loadOr_of_fetch fetched ∅)

/-- A name that the document repeats keeps its first place, and so does one that is
written again; a default of `null` does not enter its name. -/
theorem names_stay_in_order :
    let store := MemoryStore.empty.set .stateVariables
      "\x7b\"b\": null, \"a\": true, \"b\": false\x7d"
    let run := (Script.caught [.readState "c" (some .null), .writeState "d" .null,
      .readState "c" (some (.text "x")), .writeState "b" .null]).run (Exchange.load store)
    run.exchange.state.keys = ["b", "a", "d", "c"] ∧
      run.exchange.state.find? "a" = some (.bool true) ∧
      run.exchange.state.find? "b" = some .null ∧
      run.exchange.state.find? "c" = some (.text "x") := by
  intro store run
  let values : Values := Table.ofList [("b", .null), ("a", .bool true), ("b", .bool false)]
  have spelled : (Json.Tree.object
      [(some "b", .null), (some "a", .bool true), (some "b", .bool false)]).Spelled
      "\x7b\"b\": null, \"a\": true, \"b\": false\x7d" :=
    Json.Tree.spelled_iff.2 (by cbv)
  have decoded : Document.decode "\x7b\"b\": null, \"a\": true, \"b\": false\x7d" =
      .ok values :=
    (decode_spelled_iff (α := Values) trivial spelled).2
      ⟨_, Json.Tree.read?_eq_some_iff.2 ⟨by decide, rfl⟩, rfl⟩
  obtain ⟨follows, -, loads⟩ := state_follows_history (Exchange.load store)
  obtain ⟨loaded, -⟩ := loads MemoryStore store _ _ values rfl spelled decoded
  obtain ⟨value, names⟩ := follows [.readState "c" (some .null), .writeState "d" .null,
    .readState "c" (some (.text "x")), .writeState "b" .null]
  rw [loaded] at value names
  exact ⟨names, value "a", value "b", value "c"⟩

end RunExchange
