import Mathlib.Tactic
import RunExchange.Proofs.Exchange.Variables
import RunExchange.Proofs.Store.Prefix
/-!
# Proofs.Exchange.Threading -- the state is threaded through any number of runs

A host stages a request, runs a worker, collects the outcome and hands its state
on with the next request (`Round.playAll`).  What the workers read and what the
host has in the end is what a single table of variables would have, to which the
operations of all works are applied one after the other (`state_is_threaded`):
no name is lost or moved on the way through two documents in each round.

The other fields of the requests do not matter, even if they nest so deeply that
a worker cannot load them.
-/

namespace RunExchange

set_option autoImplicit false

open Json (Fits)

/-! ## Rounds -/

/-- What a host asks for: a request but for its state, and work. -/
structure Round where
  inputs : Values
  requiredIfConnected : List String
  outputNames : List String
  runNumber : Int64
  script : Script

/-- A script as work, which returns the operations with their answers. -/
def Script.record (script : Script) :
    Action Exchange ExchangeError (List (Operation × Except ExchangeError Answer)) :=
  fun exchange =>
    let transcript := script.run exchange
    ⟨match transcript.failure with
      | none => .ok ((script.map Step.operation).zip (transcript.answers.map (·.1)))
      | some error => .error error,
      transcript.exchange, transcript.events⟩

/-- Collecting leaves the store alone. -/
def Outcome.collecting {σ : Type} [Store σ] : Action σ ExchangeError Outcome := fun store =>
  ⟨Outcome.collect store, store, []⟩

namespace Round

def request (round : Round) (state : Values) : Request where
  inputs := round.inputs
  requiredIfConnected := round.requiredIfConnected
  outputNames := round.outputNames
  state := state
  runNumber := round.runNumber

def operations (round : Round) : List Operation := round.script.map Step.operation

section Play

variable {σ : Type} [Store σ]

/-- Stage the request with a state, run the worker and collect the outcome. -/
def play (round : Round) (state : Values) :
    Action σ ExchangeError (List (Operation × Except ExchangeError Answer) × Outcome) := do
  (round.request state).stage
  let answers ← runWorker round.script.record
  let outcome ← Outcome.collecting
  return (answers, outcome)

/-- Play rounds one after the other, each with the state of the outcome before. -/
def playAll : List Round → Values →
    Action σ ExchangeError (List (Operation × Except ExchangeError Answer) × Values)
  | [], state => return ([], state)
  | round :: rounds, state => do
      let (answers, outcome) ← round.play state
      let (later, final) ← playAll rounds outcome.state
      return (answers ++ later, final)

end Play

end Round

/-- The exchange that a worker loads for a request. -/
def Request.received (request : Request) : Exchange :=
  Exchange.load (request.stage MemoryStore.empty).state

namespace Round

/-- The state that a table of variables has after the work. -/
def after (round : Round) (state : Values) : Values :=
  (Operation.consultAll round.operations state).2

/-- The work does not end in an error, the variables of a table that follows it
nest at most 126 containers at any time, and the values that it writes to outputs
at most 125. -/
structure Sound (round : Round) (state : Values) : Prop where
  succeeds : (round.script.run (round.request state).received).failure = none
  stored : ∀ operations, operations <+: round.operations → ∀ name value,
    (Operation.consultAll operations state).2.find? name = some value →
      value.depth ≤ 126 ∧ value.WellFormed
  emitted : ∀ name value, .writeOutput name value ∈ round.operations →
    name ∈ round.outputNames → value.depth ≤ 125 ∧ value.WellFormed

/-- Each round is sound with the state that the rounds before it leave. -/
def AllSound : List Round → Values → Prop
  | [], _ => True
  | round :: rounds, state => round.Sound state ∧ AllSound rounds (round.after state)

end Round

/-! ## Scripts that do not fail -/

/-- A script that does not fail goes as if all failures were caught. -/
theorem Script.run_of_succeeds {script : Script} {exchange : Exchange}
    (succeeds : (script.run exchange).failure = none) :
    (script.run exchange).answers =
        ((Script.caught (script.map Step.operation)).run exchange).answers ∧
      (script.run exchange).exchange = exchange.performAll (script.map Step.operation) := by
  induction script generalizing exchange with
  | nil => exact ⟨rfl, rfl⟩
  | cons step script ih =>
      rw [Script.run] at succeeds ⊢
      rw [List.map_cons, Script.caught, List.map_cons, ← Script.caught, Script.run,
        Exchange.performAll_cons]
      cases performed : Exchange.perform step.operation exchange with
      | mk result state events =>
          simp only [performed] at succeeds ⊢
          cases result with
          | ok answer =>
              obtain ⟨answers, left⟩ := ih succeeds
              exact ⟨congrArg ((.ok answer, state) :: ·) answers, left⟩
          | error error =>
              simp only at succeeds ⊢
              split at succeeds
              · next caught =>
                  obtain ⟨answers, left⟩ := ih succeeds
                  rw [if_pos caught]
                  exact ⟨congrArg ((.error error, state) :: ·) answers, left⟩
              · cases succeeds

theorem Script.record_of_succeeds {script : Script} {exchange : Exchange}
    (succeeds : (script.run exchange).failure = none) :
    (script.record exchange).result =
        .ok (Script.calls (script.map Step.operation) exchange) ∧
      (script.record exchange).state = exchange.performAll (script.map Step.operation) := by
  obtain ⟨answers, left⟩ := Script.run_of_succeeds succeeds
  refine ⟨?_, left⟩
  rw [Script.record, Script.calls]
  simp only [succeeds, answers]

/-! ## One round -/

section Received

variable {σ : Type} [Store σ] {store : σ} {request : Request}

theorem MemoryStore.read_staged (request : Request) (store : MemoryStore) :
    Store.read (request.stage store).state = overlay request.text? (Store.read store) :=
  (MemoryStore.keeping.stage trivial (MemoryStore.stage_ok request store)).2

/-- A worker loads the same exchange from every store in which the request was
staged. -/
theorem load_eq_received {below : Resource → Except IoError String}
    (read : Store.read store = overlay request.text? below) :
    Exchange.load store = request.received := by
  refine (load_of_same fun resource initial => ?_).1
  obtain ⟨text, written⟩ := request.exists_text? initial
  rw [read, MemoryStore.read_staged, overlay_of_text written, overlay_of_text written]

theorem Request.outputNames_received (request : Request) :
    request.received.outputNames = request.outputNames := by
  have read := congrFun (MemoryStore.read_staged request .empty) .declaredOutputs
  exact congrArg Loaded.value (loadOutputNames_of_read read)

theorem Request.state_received (handed : RunExchange.HandedOn request.state) :
    request.received.state = request.state := by
  have read := congrFun (MemoryStore.read_staged request .empty) .stateVariables
  exact congrArg Loaded.value (loadState_of_read handed read)

end Received

namespace Round.Sound

variable {round : Round} {state : Values} (sound : round.Sound state)
include sound

/-- A table that follows the work can be handed on at any time. -/
theorem handedOn {operations : List Operation} (early : operations <+: round.operations) :
    HandedOn (Operation.consultAll operations state).2 := by
  rw [handedOn_values_iff]
  intro name value found
  obtain ⟨low, wellFormed⟩ := sound.stored operations early name value found
  exact Json.fits_of_depth_le low wellFormed (by decide)

theorem state_received : (round.request state).received.state = state := by
  have handed : HandedOn state := sound.handedOn (List.nil_prefix)
  exact Request.state_received handed

/-- What the worker leaves can be handed on. -/
theorem deliverable :
    ((round.request state).received.performAll round.operations).Deliverable := by
  constructor
  case outputs =>
    rw [Exchange.outputs_performAll, Request.outputNames_received]
    refine Exchange.forall_emitAll (fun emission here => ?_) nofun
    obtain ⟨operation, there, emits⟩ := List.mem_flatMap.1 here
    cases operation with
    | writeOutput name value =>
        rw [Operation.emits] at emits
        split at emits
        · next declared =>
            cases List.mem_singleton.1 emits
            obtain ⟨low, wellFormed⟩ := sound.emitted name value there declared
            exact Json.fits_of_depth_le low wellFormed (by decide)
        · cases emits
    | _ => cases emits
  case state =>
    rw [(Script.calls_consultAll _ _).2, sound.state_received]
    exact sound.handedOn (List.prefix_refl _)

section Ready

variable {σ : Type} [Store σ] {good : σ → Prop} (ready : Store.Ready σ good) {store : σ}
  (here : good store)
include ready here

/-- The worker runs to its end, and its results can be collected. -/
theorem run {below : Resource → Except IoError String}
    (read : Store.read store = overlay (round.request state).text? below) :
    (runWorker round.script.record store).result =
        .ok (Script.calls round.operations (round.request state).received) ∧
      good (runWorker round.script.record store).state ∧
      Outcome.collect (runWorker round.script.record store).state =
        .ok ((round.request state).received.performAll round.operations).outcome := by
  have loaded := load_eq_received read
  obtain ⟨recorded, left⟩ := Script.record_of_succeeds sound.succeeds
  rw [← loaded] at recorded left
  obtain ⟨returned, written⟩ := runWorker_of_ok recorded
  have finalized := ready.finalize_ok here (round.script.record (Exchange.load store)).state
  obtain ⟨still, results⟩ := ready.toKeeping.finalize here finalized
  rw [finalized, loaded] at returned
  rw [← written] at still results
  rw [left, loaded] at results
  refine ⟨returned, still, ?_⟩
  exact collect_finalized (handedOn_emissions sound.deliverable.outputs) sound.deliverable.state
    results

/-- **One round** answers as the table does and hands its state on. -/
theorem play :
    ∃ answers outcome, (round.play state store).result = .ok (answers, outcome) ∧
      answers.filter (·.1.concernsState) = (Operation.consultAll round.operations state).1 ∧
      outcome.state = round.after state ∧ good (round.play state store).state := by
  obtain ⟨calls, left⟩ :=
    Script.calls_consultAll round.operations (round.request state).received
  rw [sound.state_received] at calls left
  have staged := ready.stage_ok here (round.request state)
  obtain ⟨kept, read⟩ := ready.toKeeping.stage here staged
  obtain ⟨returned, still, collected⟩ := sound.run ready kept read
  change (Outcome.collecting (runWorker round.script.record _).state).result = _ at collected
  -- The three parts of a round, one after the other.
  rw [Round.play]
  obtain ⟨first, firstState⟩ := Action.bind_of_ok staged
  obtain ⟨second, secondState⟩ := Action.bind_of_ok returned
  obtain ⟨third, thirdState⟩ := Action.bind_of_ok collected
  refine ⟨_, _, first.trans (second.trans third), calls, left, ?_⟩
  rw [firstState, secondState, thirdState]
  exact still

end Ready

end Round.Sound

/-! ## All rounds -/

namespace Round

/-- The state that a table of variables has after the works of some rounds. -/
def afterAll (rounds : List Round) (state : Values) : Values :=
  (Operation.consultAll (rounds.flatMap operations) state).2

/-- Playing the rounds succeeds, each read of the state is answered as by the
table to which the operations of all works are applied one after the other, and
the state in the end is that table. -/
def Threads {σ : Type} [Store σ] (rounds : List Round) (state : Values) (store : σ) : Prop :=
  ∃ answers, (playAll rounds state store).result = .ok (answers, afterAll rounds state) ∧
    answers.filter (·.1.concernsState) =
      (Operation.consultAll (rounds.flatMap operations) state).1

theorem threads_of_ready {σ : Type} [Store σ] {good : σ → Prop} (ready : Store.Ready σ good)
    {rounds : List Round} {state : Values} (sound : AllSound rounds state) {store : σ}
    (here : good store) : Threads rounds state store := by
  induction rounds generalizing state store with
  | nil => exact ⟨[], rfl, rfl⟩
  | cons round rounds ih =>
      obtain ⟨answers, outcome, played, first, left, still⟩ := sound.1.play ready here
      obtain ⟨later, playedLater, rest⟩ := ih sound.2 still
      have all : Operation.consultAll ((round :: rounds).flatMap operations) state = _ :=
        Operation.consultAll_append round.operations (rounds.flatMap operations) state
      rw [← left] at playedLater
      refine ⟨answers ++ later, ?_, ?_⟩
      · rw [playAll]
        refine (Action.bind_of_ok played).1.trans ((Action.bind_of_ok playedLater).1.trans ?_)
        rw [left, afterAll, afterAll, all]
        rfl
      · rw [List.filter_append, first, rest, all]
        rfl

end Round

/-- **The state is threaded through any number of rounds**, on a store in memory
or in a directory whose resources can be written.  A variable that no later work
writes keeps its value. -/
theorem state_is_threaded {rounds : List Round} {state : Values}
    (sound : Round.AllSound rounds state) :
    (∀ store : MemoryStore, Round.Threads rounds state store) ∧
      (∀ store : DirectoryStore, store.layout.validate = .ok () →
        (∀ resource text, ∃ written, Store.write store resource text = .ok written) →
        Round.Threads rounds state store) ∧
      ∀ earlier later name value, rounds = earlier ++ later →
        (Round.afterAll earlier state).find? name = some value →
        (∀ round ∈ later, ∀ other, .writeState name other ∉ round.operations) →
        (Round.afterAll rounds state).find? name = some value := by
  refine ⟨fun store => ?_, fun store passed writes => ?_, ?_⟩
  · exact Round.threads_of_ready MemoryStore.ready sound trivial
  · have valid := (Layout.validate_eq_ok_iff _).1 passed
    refine Round.threads_of_ready DirectoryStore.ready sound ⟨valid, fun resource => ?_⟩
    exact (store.writable_iff_write resource "").2 (writes resource "")
  · rintro earlier later name value rfl held unwritten
    rw [Round.afterAll, List.flatMap_append, Operation.consultAll_append]
    refine Operation.find?_consultAll held fun other here => ?_
    obtain ⟨round, there, written⟩ := List.mem_flatMap.1 here
    exact unwritten round there other written

/-! ## Rounds that bring nothing too deep -/

theorem handedOn_consultAll {operations : List Operation} {state : Values}
    (brought : ∀ operation ∈ operations, operation.Deliverable) (held : HandedOn state) :
    HandedOn (Operation.consultAll operations state).2 := by
  let alone : Exchange := { Exchange.empty with state }
  have start : alone.Deliverable := ⟨nofun, held⟩
  have left : (alone.performAll operations).state = _ := (Script.calls_consultAll _ alone).2
  rw [← left]
  exact (start.performAll brought).state

namespace Round

variable {round : Round} {state : Values}
  (brought : ∀ operation ∈ round.operations, operation.Deliverable) (held : HandedOn state)
include brought held

/-- Work that does not fail and brings nothing too deep makes a sound round. -/
theorem sound_of_brought
    (succeeds : (round.script.run (round.request state).received).failure = none) :
    round.Sound state where
  succeeds := succeeds
  stored early isEarly name value found := by
    have few : ∀ operation ∈ early, operation.Deliverable := fun operation here =>
      brought operation (isEarly.subset here)
    obtain ⟨low, wellFormed⟩ :=
      (handedOn_values_iff _).1 (handedOn_consultAll few held) name value found
    rw [Json.nestingLimit] at low
    exact ⟨by omega, wellFormed⟩
  emitted name value here _ := brought _ here

/-- So does work of which every failure is caught. -/
theorem sound_of_caught (caught : round.script = Script.caught round.operations) :
    round.Sound state := by
  refine sound_of_brought brought held ?_
  rw [caught]
  exact (Script.run_caught round.operations _).1

end Round

/-- A variable is stored in the first of two rounds and required in the second. -/
theorem variable_is_threaded :
    let first : Round := ⟨∅, [], [], 1, Script.caught [.writeState "x" .null]⟩
    let second : Round := ⟨∅, [], ["a"], 2, Script.caught [.requireState "x", .closeOutput "b"]⟩
    ∃ answers state,
      (Round.playAll [first, second] ∅ MemoryStore.empty).result = .ok (answers, state) ∧
        answers.filter (·.1.concernsState) =
          [(.writeState "x" .null, .ok .done), (.requireState "x", .ok (.value .null))] ∧
        state.find? "x" = some .null := by
  intro first second
  have brought : ∀ operation ∈ first.operations, operation.Deliverable := by
    simp [first, Round.operations, Script.caught, Operation.Deliverable, Json.depth,
      Json.WellFormed]
  have later : ∀ operation ∈ second.operations, operation.Deliverable := by
    simp [second, Round.operations, Script.caught, Operation.Deliverable]
  have sound : Round.AllSound [first, second] ∅ :=
    ⟨Round.sound_of_caught brought handedOn_noValues rfl,
      Round.sound_of_caught later (handedOn_consultAll brought handedOn_noValues) rfl, trivial⟩
  obtain ⟨inMemory, -, keeps⟩ := state_is_threaded sound
  obtain ⟨answers, played, answered⟩ := inMemory MemoryStore.empty
  refine ⟨answers, _, played, answered, ?_⟩
  exact keeps [first] [second] "x" .null rfl rfl (by simp [second, Round.operations, Script.caught])

end RunExchange
