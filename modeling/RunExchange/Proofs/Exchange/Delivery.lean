import Mathlib.Tactic
import RunExchange.Proofs.Exchange.Effects
import RunExchange.Proofs.Store.Fetching
/-!
# Proofs.Exchange.Delivery -- what a worker did is what the host collects

A host stages a request, a worker carries out operations and ignores their
failures, and the host collects the outcome (`delivered`).  The outcome reports
exactly what the operations did on behalf of declared outputs, in the order in
which they did it, and the state as the worker left it.

The values that are brought in have to leave room for the containers around
them: an emitted value stands in a list in an object, a state variable in an
object.
-/

namespace RunExchange

set_option autoImplicit false

/-! ## Scripts without an end of their own -/

/-- The script of operations of which every failure is caught. -/
def Script.caught (operations : List Operation) : Script :=
  operations.map fun operation => ⟨operation, true⟩

theorem Script.run_caught (operations : List Operation) (exchange : Exchange) :
    ((Script.caught operations).run exchange).failure = none ∧
      ((Script.caught operations).run exchange).answers.length = operations.length ∧
      ((Script.caught operations).run exchange).exchange =
        exchange.performAll operations := by
  induction operations generalizing exchange with
  | nil => exact ⟨rfl, rfl, rfl⟩
  | cons operation operations ih =>
      obtain ⟨going, answered, left⟩ := ih (Exchange.perform operation exchange).state
      rw [Script.caught, List.map_cons, ← Script.caught, Script.run]
      cases result : (Exchange.perform operation exchange).result with
      | ok answer =>
          exact ⟨going, congrArg (· + 1) answered, left⟩
      | error error =>
          exact ⟨going, congrArg (· + 1) answered, left⟩

/-- The operations with the answers that they get when every failure is
caught. -/
def Script.calls (operations : List Operation) (exchange : Exchange) :
    List (Operation × Except ExchangeError Answer) :=
  operations.zip (((Script.caught operations).run exchange).answers.map (·.1))

theorem Script.calls_cons (operation : Operation) (operations : List Operation)
    (exchange : Exchange) :
    Script.calls (operation :: operations) exchange =
      (operation, (Exchange.perform operation exchange).result) ::
        Script.calls operations (Exchange.perform operation exchange).state := by
  rw [Script.calls, Script.caught, List.map_cons, ← Script.caught, Script.run]
  cases Exchange.perform operation exchange with
  | mk result state events => cases result <;> rfl

/-- Work that succeeds is followed by finalizing what it leaves. -/
theorem runWorker_of_ok {σ α : Type} [Store σ] {work : Action Exchange ExchangeError α}
    {store : σ} {value : α} (worked : (work (Exchange.load store)).result = .ok value) :
    (runWorker work store).result =
        ((work (Exchange.load store)).state.finalize store).result.map (fun _ => value) ∧
      (runWorker work store).state =
        ((work (Exchange.load store)).state.finalize store).state := by
  rw [runWorker_eq_of_ok worked]
  exact ⟨rfl, rfl⟩

/-! ## What an outcome reports -/

namespace Operation

theorem mem_closes_iff {declared : List String} {name : String} {operations : List Operation} :
    name ∈ operations.flatMap (closes declared) ↔
      name ∈ declared ∧ (.closeOutput name ∈ operations ∨ .closeAllOutputs ∈ operations) := by
  rw [List.mem_flatMap]
  constructor
  · rintro ⟨operation, there, closed⟩
    cases operation with
    | closeOutput output =>
        rw [closes] at closed
        split at closed
        · next known =>
            obtain rfl := List.mem_singleton.1 closed
            exact ⟨known, .inl there⟩
        · cases closed
    | closeAllOutputs => exact ⟨closed, .inr there⟩
    | _ => cases closed
  · rintro ⟨known, there | there⟩
    · refine ⟨_, there, ?_⟩
      rw [closes, if_pos known]
      exact List.mem_singleton_self name
    · exact ⟨_, there, known⟩

theorem mem_leaves_iff {declared : List String} {name : String} {operations : List Operation} :
    name ∈ operations.flatMap (leaves declared) ↔
      name ∈ declared ∧ .leaveIndefinite name ∈ operations := by
  rw [List.mem_flatMap]
  constructor
  · rintro ⟨operation, there, left⟩
    cases operation with
    | leaveIndefinite output =>
        rw [leaves] at left
        split at left
        · next known =>
            obtain rfl := List.mem_singleton.1 left
            exact ⟨known, there⟩
        · cases left
    | _ => cases left
  · rintro ⟨known, there⟩
    refine ⟨_, there, ?_⟩
    rw [leaves, if_pos known]
    exact List.mem_singleton_self name

end Operation

/-- The outcome reports the operations on declared outputs, and a state. -/
structure Outcome.Reports (outcome : Outcome) (declared : List String)
    (operations : List Operation) (state : Values) : Prop where
  /-- The outputs are the declared names to which something was written. -/
  names : ∀ name, name ∈ outcome.outputs.keys ↔
    name ∈ declared ∧ ∃ value, .writeOutput name value ∈ operations
  /-- An output has all values written to it, in the order of the calls. -/
  values : ∀ name ∈ outcome.outputs.keys,
    outcome.outputs.find? name = some (Operation.emitted declared name operations)
  last : ∀ name, outcome.lastValue name = (Operation.emitted declared name operations).getLast?
  /-- The closed outputs stand in the order in which they were first closed. -/
  closed : outcome.closed = (operations.flatMap (Operation.closes declared)).eraseDups
  closedOnce : outcome.closed.Nodup
  isClosed : ∀ name, outcome.isClosed name = true ↔
    name ∈ declared ∧ (.closeOutput name ∈ operations ∨ .closeAllOutputs ∈ operations)
  /-- So do the outputs left indefinite. -/
  indefinite : outcome.indefinite = (operations.flatMap (Operation.leaves declared)).eraseDups
  indefiniteOnce : outcome.indefinite.Nodup
  isIndefinite : ∀ name, outcome.isIndefinite name = true ↔
    name ∈ declared ∧ .leaveIndefinite name ∈ operations
  state : outcome.state = state

/-- The worker has produced nothing yet. -/
structure Exchange.Fresh (exchange : Exchange) : Prop where
  outputs : exchange.outputs = ∅
  closed : exchange.closed = []
  indefinite : exchange.indefinite = []

theorem Request.fresh_opened (request : Request) : request.opened.Fresh := ⟨rfl, rfl, rfl⟩

theorem Exchange.fresh_load {σ : Type} [Store σ] (store : σ) : (load store).Fresh :=
  ⟨rfl, rfl, rfl⟩

theorem emitted_ne_nil_iff (operations : List Operation) {declared : List String} {name : String} :
    Operation.emitted declared name operations ≠ [] ↔
      name ∈ declared ∧ ∃ value, .writeOutput name value ∈ operations := by
  constructor
  · intro written
    obtain ⟨value, here⟩ := List.exists_mem_of_ne_nil _ written
    obtain ⟨known, there⟩ := Operation.mem_emitted_iff.1 here
    exact ⟨known, value, there⟩
  · rintro ⟨known, value, there⟩
    exact List.ne_nil_of_mem (Operation.mem_emitted_iff.2 ⟨known, there⟩)

namespace Exchange.Fresh

variable {exchange : Exchange} (fresh : exchange.Fresh) (operations : List Operation)
include fresh

theorem find?_outputs (name : String) :
    (exchange.performAll operations).outputs.find? name =
      if Operation.emitted exchange.outputNames name operations = [] then none
      else some (Operation.emitted exchange.outputNames name operations) := by
  rw [outputs_performAll, find?_emitAll, fresh.outputs]
  rfl

theorem mem_keys_iff (name : String) :
    name ∈ (exchange.performAll operations).outputs.keys ↔
      Operation.emitted exchange.outputNames name operations ≠ [] := by
  rw [SortedTable.mem_keys_iff, fresh.find?_outputs]
  split
  · next nothing => simp [nothing]
  · next something => simp [something]

/-- The values of the outputs are those written to declared ones. -/
theorem exists_mem_outputs_iff {name : String} {value : Json} :
    (∃ values, (exchange.performAll operations).outputs.find? name = some values ∧
        value ∈ values) ↔
      name ∈ exchange.outputNames ∧ .writeOutput name value ∈ operations := by
  rw [← Operation.mem_emitted_iff, fresh.find?_outputs]
  split
  · next nothing => simp [nothing]
  · next something => simp

theorem closed_eq :
    (exchange.performAll operations).closed =
      (operations.flatMap (Operation.closes exchange.outputNames)).eraseDups := by
  rw [closed_performAll, fresh.closed]
  exact markAll_eraseDups _ []

theorem indefinite_eq :
    (exchange.performAll operations).indefinite =
      (operations.flatMap (Operation.leaves exchange.outputNames)).eraseDups := by
  rw [indefinite_performAll, fresh.indefinite]
  exact markAll_eraseDups _ []

/-- **The outcome of an exchange reports the operations that were carried out.** -/
theorem reports_outcome :
    (exchange.performAll operations).outcome.Reports exchange.outputNames operations
      (exchange.performAll operations).state where
  names name := by
    exact (fresh.mem_keys_iff operations name).trans (emitted_ne_nil_iff operations)
  values name here := by
    have written := (fresh.mem_keys_iff operations name).1 here
    exact (fresh.find?_outputs operations name).trans (if_neg written)
  last name := by
    rw [Outcome.lastValue]
    change ((exchange.performAll operations).outputs.find? name).bind List.getLast? = _
    rw [fresh.find?_outputs]
    split
    · next nothing => rw [nothing]; rfl
    · rfl
  closed := fresh.closed_eq operations
  closedOnce := by
    rw [outcome, fresh.closed_eq]
    exact nodup_eraseDups _
  isClosed name := by
    rw [Outcome.isClosed, List.contains_iff_mem, outcome, fresh.closed_eq,
      List.mem_eraseDups, Operation.mem_closes_iff]
  indefinite := fresh.indefinite_eq operations
  indefiniteOnce := by
    rw [outcome, fresh.indefinite_eq]
    exact nodup_eraseDups _
  isIndefinite name := by
    rw [Outcome.isIndefinite, List.contains_iff_mem, outcome, fresh.indefinite_eq,
      List.mem_eraseDups, Operation.mem_leaves_iff]
  state := rfl

end Exchange.Fresh

theorem Outcome.reports_outcome (request : Request) (operations : List Operation) :
    (request.opened.performAll operations).outcome.Reports request.outputNames operations
      (request.opened.performAll operations).state :=
  request.fresh_opened.reports_outcome operations

/-! ## From the host to the worker and back -/

/-- **What a worker did is what the host collects.** -/
theorem delivered {text : String} {request : Request}
    (parsed : Document.decode text = .ok request) (store : MemoryStore)
    (operations : List Operation)
    (deliverable : ∀ operation ∈ operations, operation.Deliverable) :
    let staged := request.stage store
    let loaded := Exchange.load staged.state
    let worked := runWorker (Script.caught operations).work staged.state
    staged.result = .ok () ∧ worked.result = .ok operations.length ∧
      ∃ outcome, Outcome.collect worked.state = .ok outcome ∧
        outcome.Reports request.outputNames operations (loaded.performAll operations).state := by
  intro staged loaded worked
  have handed := Request.handedOn_of_decode parsed
  obtain ⟨-, read⟩ := MemoryStore.keeping.stage trivial (MemoryStore.stage_ok request store)
  have opened : loaded = request.opened := load_staged handed read
  -- Nothing was emitted yet, and the state of the request can be handed on.
  have start : request.opened.Deliverable := ⟨nofun, handed.state⟩
  have final := Exchange.Deliverable.performAll deliverable start
  obtain ⟨going, answered, left⟩ := Script.run_caught operations loaded
  have result : ((Script.caught operations).work loaded).result = .ok operations.length := by
    rw [Script.work]
    simp only [going, answered]
  have exchange : ((Script.caught operations).work loaded).state =
      request.opened.performAll operations := by
    rw [← opened]
    exact left
  obtain ⟨returned, written⟩ := runWorker_of_ok result
  rw [exchange] at returned written
  refine ⟨rfl, returned, (request.opened.performAll operations).outcome, ?_, ?_⟩
  · obtain ⟨-, results⟩ := MemoryStore.keeping.finalize trivial
      (MemoryStore.finalize_ok (request.opened.performAll operations) staged.state)
    change Outcome.collect (runWorker _ _).state = _
    rw [written]
    exact collect_finalized (handedOn_emissions final.outputs) final.state results
  · rw [opened]
    exact Outcome.reports_outcome request operations

/-- One value, then the end of all outputs. -/
theorem delivered_one_value :
    let request : Request := { Request.standard with outputNames := ["a", "b"] }
    let operations : List Operation :=
      [.writeOutput "a" .null, .writeOutput "c" .null, .closeAllOutputs]
    let worked := runWorker (Script.caught operations).work
      (request.stage MemoryStore.empty).state
    ∃ outcome, Outcome.collect worked.state = .ok outcome ∧
      outcome.closed = ["a", "b"] ∧ outcome.lastValue "a" = some .null ∧
      outcome.lastValue "c" = none := by
  intro request operations worked
  have handed : HandedOn request :=
    ⟨by decide, by simp [request, Request.standard, Document.toJson, Json.ofTexts, Json.ofInt64,
      Json.WellFormed, Json.WellFormedItems, Json.WellFormedEntries]⟩
  have brought : ∀ operation ∈ operations, operation.Deliverable := by
    simp [operations, Operation.Deliverable, Json.depth, Json.WellFormed]
  obtain ⟨-, -, outcome, collected, reports⟩ :=
    delivered (decode_of_handedOn handed) MemoryStore.empty operations brought
  exact ⟨outcome, collected, reports.closed, reports.last "a", reports.last "c"⟩

end RunExchange
