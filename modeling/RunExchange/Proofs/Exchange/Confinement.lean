import Mathlib.Tactic
import RunExchange.Proofs.Exchange.Channels
/-!
# Proofs.Exchange.Confinement -- an operation acts on its own part alone

The parts of an exchange that operations act on are the values of each output,
the closed outputs, the outputs left indefinite and each state variable.  An
operation has at most one of them (`Operation.parts`).  If it succeeds, it leaves
there what it is for (`Operation.Acts`), and the rest of the exchange as it was
(`Exchange.Frame`); the state variables around its own keep their order as well as
their values.  If it fails, the whole exchange is as before.

A run therefore changes no part but those of its operations
(`operations_are_confined`).
-/

namespace RunExchange

set_option autoImplicit false

/-- The parts of an exchange on which operations act. -/
inductive Part
  /-- The values emitted on an output. -/
  | output (name : String)
  | closed
  | indefinite
  /-- A state variable. -/
  | state (name : String)
deriving DecidableEq

namespace Operation

/-- The part of an operation.  Listings, and readings that store nothing, have
none. -/
def parts : Operation → List Part
  | .writeOutput name _ => [.output name]
  | .closeOutput _ | .closeAllOutputs => [.closed]
  | .leaveIndefinite _ => [.indefinite]
  | .writeState name _ | .readState name _ | .readStateOr name _ => [.state name]
  | _ => []

/-- What an operation that succeeds leaves in its part. -/
def Acts (before after : Exchange) : Operation → Prop
  | .writeOutput name value =>
      after.outputs.find? name = some ((before.outputs.find? name).getD [] ++ [value])
  | .closeOutput name => after.closed = Exchange.mark name before.closed
  | .closeAllOutputs => after.closed = Exchange.markAll before.outputNames before.closed
  | .leaveIndefinite name => after.indefinite = Exchange.mark name before.indefinite
  | .writeState name value => after.state.find? name = some value
  | .readState name default =>
      after.state.find? name = (before.state.find? name).or (Exchange.supplied default)
  | .readStateOr name default =>
      after.state.find? name = (before.state.find? name).or (Exchange.supplied (some default))
  | _ => True

section Parts

variable {operation : Operation}

theorem output_mem_parts {name : String} (own : operation.channel? = some (.output name)) :
    .output name ∈ operation.parts := by
  cases operation with
  | writeOutput target value =>
      cases own
      exact List.mem_singleton_self _
  | _ => cases own

theorem closed_mem_parts (own : operation.channel? = some .closing) :
    .closed ∈ operation.parts := by
  cases operation with
  | closeOutput name => exact List.mem_singleton_self _
  | closeAllOutputs => exact List.mem_singleton_self _
  | _ => cases own

theorem indefinite_mem_parts (own : operation.channel? = some .indefinite) :
    .indefinite ∈ operation.parts := by
  cases operation with
  | leaveIndefinite name => exact List.mem_singleton_self _
  | _ => cases own

theorem eq_of_mem_storesDefault {state : Values} {name : String} {default : Option Json}
    {stored : String × Json} (here : stored ∈ storesDefault state name default) :
    stored.1 = name := by
  rw [storesDefault] at here
  split at here
  · rw [List.mem_singleton.1 here]
  · cases here

/-- Only the variable of the operation is stored. -/
theorem state_mem_parts {state : Values} {stored : String × Json}
    (here : stored ∈ operation.stores state) : .state stored.1 ∈ operation.parts := by
  cases operation with
  | writeState name value =>
      rw [List.mem_singleton.1 here]
      exact List.mem_singleton_self _
  | readState name default =>
      rw [eq_of_mem_storesDefault here]
      exact List.mem_singleton_self _
  | readStateOr name default =>
      rw [eq_of_mem_storesDefault here]
      exact List.mem_singleton_self _
  | _ => cases here

end Parts

end Operation

/-! ## Entries under other names -/

/-- Giving a name a value leaves the entries under other names where they are. -/
theorem Entries.filter_insert {α : Type} (kept : String → Bool) {name : String}
    (dropped : kept name = false) (value : α) (entries : List (String × α)) :
    (insert name value entries).filter (fun entry => kept entry.1) =
      entries.filter fun entry => kept entry.1 := by
  induction entries with
  | nil => simp [insert, dropped]
  | cons head entries ih =>
      obtain ⟨key, old⟩ := head
      by_cases same : key = name
      · subst same
        simp [insert, dropped]
      · simp only [insert, same, if_false, List.filter_cons, ih]

namespace Exchange

theorem filter_storeAll (kept : String → Bool) {additions : List (String × Json)}
    (dropped : ∀ stored ∈ additions, kept stored.1 = false) (state : Values) :
    (storeAll additions state).entries.filter (fun entry => kept entry.1) =
      state.entries.filter fun entry => kept entry.1 := by
  induction additions generalizing state with
  | nil => rfl
  | cons stored additions ih =>
      rw [storeAll, List.foldl_cons, ← storeAll,
        ih fun other there => dropped other (List.mem_cons_of_mem _ there)]
      exact Entries.filter_insert kept (dropped stored List.mem_cons_self) _ _

/-! ## Exchanges that differ in some parts -/

/-- Two exchanges differ at most in some parts. -/
structure Frame (parts : List Part) (before after : Exchange) : Prop where
  inputs : after.inputs = before.inputs
  requiredIfConnected : after.requiredIfConnected = before.requiredIfConnected
  outputNames : after.outputNames = before.outputNames
  outputs : ∀ name, .output name ∉ parts →
    after.outputs.find? name = before.outputs.find? name
  closed : .closed ∉ parts → after.closed = before.closed
  indefinite : .indefinite ∉ parts → after.indefinite = before.indefinite
  /-- The other variables have their values and stand in their order. -/
  state : after.state.entries.filter (fun entry => .state entry.1 ∉ parts) =
    before.state.entries.filter fun entry => .state entry.1 ∉ parts
  runNumber : after.runNumber = before.runNumber
  defaulted : after.defaulted = before.defaulted

namespace Frame

variable {parts more : List Part} {before between after : Exchange}

theorem refl (parts : List Part) (exchange : Exchange) : Frame parts exchange exchange :=
  ⟨rfl, rfl, rfl, fun _ _ => rfl, fun _ => rfl, fun _ => rfl, rfl, rfl, rfl⟩

theorem trans (first : Frame parts before between) (second : Frame parts between after) :
    Frame parts before after where
  inputs := second.inputs.trans first.inputs
  requiredIfConnected := second.requiredIfConnected.trans first.requiredIfConnected
  outputNames := second.outputNames.trans first.outputNames
  outputs name apart := (second.outputs name apart).trans (first.outputs name apart)
  closed apart := (second.closed apart).trans (first.closed apart)
  indefinite apart := (second.indefinite apart).trans (first.indefinite apart)
  state := second.state.trans first.state
  runNumber := second.runNumber.trans first.runNumber
  defaulted := second.defaulted.trans first.defaulted

theorem mono (frame : Frame parts before after) (wider : parts ⊆ more) :
    Frame more before after where
  inputs := frame.inputs
  requiredIfConnected := frame.requiredIfConnected
  outputNames := frame.outputNames
  outputs name apart := frame.outputs name fun here => apart (wider here)
  closed apart := frame.closed fun here => apart (wider here)
  indefinite apart := frame.indefinite fun here => apart (wider here)
  state := by
    -- The entries outside more parts are found among those outside the fewer ones.
    have among : ∀ entries : List (String × Json),
        entries.filter (fun entry => .state entry.1 ∉ more) =
          (entries.filter fun entry => .state entry.1 ∉ parts).filter
            fun entry => .state entry.1 ∉ more := by
      intro entries
      rw [List.filter_filter]
      refine List.filter_congr fun entry _ => ?_
      have narrow : .state entry.1 ∉ more → .state entry.1 ∉ parts := fun apart here =>
        apart (wider here)
      simpa using narrow
    rw [among, among before.state.entries, frame.state]
  runNumber := frame.runNumber
  defaulted := frame.defaulted

/-- Exchanges that differ in no part are the same. -/
theorem eq_of_nil (frame : Frame [] before after) : after = before := by
  have outputs : after.outputs = before.outputs :=
    SortedTable.eq_of_find? fun name => frame.outputs name List.not_mem_nil
  have state : after.state = before.state := Table.ext (by simpa using frame.state)
  obtain ⟨inputs, required, names, -, closed, indefinite, -, number, defaulted⟩ := frame
  cases before
  cases after
  simp_all

end Frame

/-! ## One operation -/

/-- An operation that fails changes nothing. -/
theorem state_perform_of_error {operation : Operation} {exchange : Exchange}
    {error : ExchangeError} (failed : (perform operation exchange).result = .error error) :
    (perform operation exchange).state = exchange := by
  have changed : ∀ result : Except ExchangeError Exchange,
      (change result exchange).result = .error error →
        (change result exchange).state = exchange := by
    rintro (_ | _) failed
    · rfl
    · cases failed
  have answered : ∀ result : Except ExchangeError Answer,
      (answer result exchange).state = exchange := by
    rintro (_ | _) <;> rfl
  cases operation with
  | closeOutput name => exact changed _ failed
  | writeOutput name value => exact changed _ failed
  | leaveIndefinite name => exact changed _ failed
  | closeAllOutputs => exact changed _ failed
  | writeState name value => cases failed
  | readState name default => cases failed
  | readStateOr name default => cases failed
  | _ => exact answered _

/-- **An operation leaves the other parts as they are.** -/
theorem frame_perform (operation : Operation) (exchange : Exchange) :
    exchange.Frame operation.parts (perform operation exchange).state := by
  have elsewhere : ∀ channel, operation.channel? ≠ some channel →
      AgreeOn channel (perform operation exchange).state exchange :=
    fun channel foreign => agreeOn_perform_of_other foreign exchange
  constructor
  case outputs =>
    exact fun name apart => (elsewhere (.output name) (mt Operation.output_mem_parts apart)).2
  case closed => exact fun apart => (elsewhere .closing (mt Operation.closed_mem_parts apart)).2
  case indefinite =>
    exact fun apart => (elsewhere .indefinite (mt Operation.indefinite_mem_parts apart)).2
  case state =>
    rw [state_perform]
    refine filter_storeAll (fun name => .state name ∉ operation.parts) ?_ exchange.state
    intro stored here
    simpa using Operation.state_mem_parts here
  all_goals rw [state_perform]

/-- What a declared output was changed to is taken over. -/
theorem eq_of_ifDeclared_ok {exchange changed : Exchange} {name : String} {answer : Answer}
    (done : (change (exchange.ifDeclared name changed) exchange).result = .ok answer) :
    (change (exchange.ifDeclared name changed) exchange).state = changed := by
  rw [ifDeclared] at done ⊢
  split at done
  · next declared => rw [if_pos declared]; rfl
  · cases done

theorem find?_readState (exchange : Exchange) (name : String) (default : Option Json) :
    (exchange.readState name default).2.state.find? name =
      (exchange.state.find? name).or (supplied default) := by
  rw [readState]
  cases held : exchange.state.find? name with
  | some value => exact held
  | none =>
      cases supplied default with
      | none => exact held
      | some value => exact (Table.find?_insert ..).trans (if_pos rfl)

/-- **An operation that succeeds acts on its part.** -/
theorem acts_perform {operation : Operation} {exchange : Exchange} {answer : Answer}
    (done : (perform operation exchange).result = .ok answer) :
    operation.Acts exchange (perform operation exchange).state := by
  cases operation with
  | writeOutput name value =>
      have changed := eq_of_ifDeclared_ok done
      show (perform _ exchange).state.outputs.find? name = _
      exact changed ▸ (SortedTable.find?_alter ..).trans (if_pos rfl)
  | closeOutput name => exact congrArg Exchange.closed (eq_of_ifDeclared_ok done)
  | leaveIndefinite name => exact congrArg Exchange.indefinite (eq_of_ifDeclared_ok done)
  | closeAllOutputs => exact congrArg Exchange.closed (state_perform .closeAllOutputs exchange)
  | writeState name value => exact (Table.find?_insert ..).trans (if_pos rfl)
  | readState name default => exact find?_readState exchange name default
  | readStateOr name default => exact find?_readState exchange name (some default)
  | _ => trivial

/-! ## Runs -/

/-- **A run leaves the parts alone on which none of its operations acts.** -/
theorem frame_performAll (operations : List Operation) (exchange : Exchange) :
    exchange.Frame (operations.flatMap Operation.parts) (exchange.performAll operations) := by
  induction operations generalizing exchange with
  | nil => exact .refl [] exchange
  | cons operation operations ih =>
      rw [performAll_cons, List.flatMap_cons]
      exact ((frame_perform operation exchange).mono (List.subset_append_left ..)).trans
        ((ih _).mono (List.subset_append_right ..))

/-- **Operations are confined to their parts.**  One that fails changes nothing, one
that succeeds acts on its part and changes nothing else, and one without a part
changes nothing.  So a run changes no part but those of its operations. -/
theorem operations_are_confined (exchange : Exchange) :
    (∀ operation : Operation,
      let report := perform operation exchange
      (∀ error, report.result = .error error → report.state = exchange) ∧
        (∀ answer, report.result = .ok answer →
          exchange.Frame operation.parts report.state ∧
            operation.Acts exchange report.state) ∧
        (operation.parts = [] → report.state = exchange)) ∧
      ∀ operations : List Operation,
        exchange.Frame (operations.flatMap Operation.parts) (exchange.performAll operations) := by
  refine ⟨fun operation => ⟨fun error failed => state_perform_of_error failed,
    fun answer done => ⟨frame_perform operation exchange, acts_perform done⟩, fun none => ?_⟩,
    fun operations => frame_performAll operations exchange⟩
  have frame := frame_perform operation exchange
  rw [none] at frame
  exact frame.eq_of_nil

end Exchange

end RunExchange
