import Mathlib.Tactic
import RunExchange.Proofs.Document.Received
import RunExchange.Proofs.Store.Keeping
/-!
# Proofs.Store.Fetching -- documents that were written are fetched

A document that was handed on is fetched from whatever store reads as its text.
So loading after staging opens the exchange of the request (`load_staged`), and
collecting after finalizing returns the results of the exchange
(`collect_finalized`).
-/

namespace RunExchange

set_option autoImplicit false

section Fetching

variable {σ α : Type} [Store σ] [Document α] {store : σ} {resource : Resource}

theorem fetch_of_read {text : String} (read : Store.read store resource = .ok text) :
    Store.fetch (α := α) store resource = (Document.decode text).mapError (.invalid resource) := by
  rw [Store.fetch, read]
  rfl

theorem fetch_document [LawfulDocument α] {document : α}
    (read : Store.read store resource = .ok (Document.encode document))
    (handed : HandedOn document) : Store.fetch store resource = .ok document := by
  rw [fetch_of_read read, decode_of_handedOn handed]
  rfl

/-- A document that nests too deeply is malformed where it is fetched. -/
theorem fetch_beyond_limit [LawfulDocument α] {document : α}
    (read : Store.read store resource = .ok (Document.encode document))
    (wellFormed : (Document.toJson document).WellFormed) (deep : ¬ HandedOn document) :
    Store.fetch (α := α) store resource = .error (.invalid resource .malformed) := by
  have beyond : ¬ (Document.toJson document).depth ≤ Json.nestingLimit := fun within =>
    deep ⟨by omega, wellFormed⟩
  rw [fetch_of_read read, decode_encode document wellFormed, if_neg beyond]
  rfl

theorem loadOr_of_fetch {document : α} (fetched : Store.fetch store resource = .ok document)
    (default : α) : Exchange.loadOr store resource default = ⟨document, none⟩ := by
  rw [Exchange.loadOr, fetched]

theorem loadOr_of_error {error : ExchangeError}
    (fetched : Store.fetch (α := α) store resource = .error error) (default : α) :
    Exchange.loadOr store resource default = ⟨default, some error⟩ := by
  rw [Exchange.loadOr, fetched]

end Fetching

/-! ## Loading -/

section Same

variable {σ τ : Type} [Store σ] [Store τ] {store : σ} {other : τ}

theorem loadOr_of_same {α : Type} [Document α] {resource : Resource}
    (same : Store.read store resource = Store.read other resource) (default : α) :
    Exchange.loadOr store resource default = Exchange.loadOr other resource default := by
  rw [Exchange.loadOr, Exchange.loadOr, Store.fetch, Store.fetch, same]

/-- An exchange is what was loaded for the initial resources. -/
theorem load_of_loaded (inputs : Exchange.loadInputs store = Exchange.loadInputs other)
    (required : Exchange.loadRequired store = Exchange.loadRequired other)
    (state : Exchange.loadState store = Exchange.loadState other)
    (names : Exchange.loadOutputNames store = Exchange.loadOutputNames other)
    (number : Exchange.loadRunNumber store = Exchange.loadRunNumber other) :
    Exchange.load store = Exchange.load other ∧
      Exchange.loadEvents store = Exchange.loadEvents other := by
  constructor
  · rw [Exchange.load, Exchange.load, inputs, required, state, names, number]
  · rw [Exchange.loadEvents, Exchange.loadEvents, inputs, required, state, names, number]

/-- **Loading depends on the texts of the initial resources alone.** -/
theorem load_of_same
    (same : ∀ resource ∈ Resource.initial,
      Store.read store resource = Store.read other resource) :
    Exchange.load store = Exchange.load other ∧
      Exchange.loadEvents store = Exchange.loadEvents other :=
  load_of_loaded (loadOr_of_same (same _ (by decide)) _) (loadOr_of_same (same _ (by decide)) _)
    (loadOr_of_same (same _ (by decide)) _)
    (congrArg (Loaded.map DeclaredOutputs.toNames) (loadOr_of_same (same _ (by decide)) _))
    (loadOr_of_same (same _ (by decide)) _)

end Same

/-- The exchange that a worker opens for a request. -/
def Request.opened (request : Request) : Exchange :=
  { Exchange.empty with
    inputs := request.inputs
    requiredIfConnected := request.requiredIfConnected
    outputNames := request.outputNames
    state := request.state
    runNumber := request.runNumber }

section Loading

variable {σ : Type} [Store σ] {store : σ} {request : Request}

theorem loadInputs_of_read (handed : request.HandedOn)
    (read : Store.read store .inputValues = .ok (Document.encode request.inputs)) :
    Exchange.loadInputs store = ⟨request.inputs, none⟩ :=
  loadOr_of_fetch (fetch_document read handed.inputs) _

theorem loadRequired_of_read (handed : request.HandedOn)
    (read : Store.read store .requiredIfConnected =
      .ok (Document.encode request.requiredIfConnected)) :
    Exchange.loadRequired store = ⟨request.requiredIfConnected, none⟩ :=
  loadOr_of_fetch (fetch_document read handed.requiredIfConnected) _

theorem loadState_of_read (handed : HandedOn request.state)
    (read : Store.read store .stateVariables = .ok (Document.encode request.state)) :
    Exchange.loadState store = ⟨request.state, none⟩ :=
  loadOr_of_fetch (fetch_document read handed) _

/-- The names are staged as a list and loaded as declared outputs. -/
theorem loadOutputNames_of_read
    (read : Store.read store .declaredOutputs = .ok (Document.encode request.outputNames)) :
    Exchange.loadOutputNames store = ⟨request.outputNames, none⟩ := by
  have listed : HandedOn (DeclaredOutputs.listed request.outputNames) :=
    handedOn_names request.outputNames
  have fetched : Store.fetch store .declaredOutputs =
      .ok (DeclaredOutputs.listed request.outputNames) := fetch_document read listed
  rw [Exchange.loadOutputNames, loadOr_of_fetch fetched]
  rfl

theorem loadRunNumber_of_read (handed : request.HandedOn)
    (read : Store.read store .runNumber = .ok (Document.encode request.runNumber)) :
    Exchange.loadRunNumber store = ⟨request.runNumber, none⟩ :=
  loadOr_of_fetch (fetch_document read handed.runNumber) _

/-- **After a request was staged, its exchange is loaded.** -/
theorem load_staged {below : Resource → Except IoError String} (handed : request.HandedOn)
    (read : Store.read store = overlay request.text? below) :
    Exchange.load store = request.opened := by
  rw [Exchange.load, loadInputs_of_read handed (congrFun read _),
    loadRequired_of_read handed (congrFun read _),
    loadState_of_read handed.state (congrFun read _), loadOutputNames_of_read (congrFun read _),
    loadRunNumber_of_read handed (congrFun read _)]
  rfl

end Loading

/-! ## Collecting -/

/-- The results of an exchange. -/
def Exchange.outcome (exchange : Exchange) : Outcome where
  outputs := exchange.outputs
  closed := exchange.closed
  state := exchange.state
  indefinite := exchange.indefinite

/-- **After an exchange was finalized, its results are collected.** -/
theorem collect_finalized {σ : Type} [Store σ] {store : σ} {exchange : Exchange}
    {below : Resource → Except IoError String} (outputs : HandedOn exchange.outputs)
    (state : HandedOn exchange.state)
    (read : Store.read store = overlay exchange.text? below) :
    Outcome.collect store = .ok exchange.outcome := by
  have closed := handedOn_names exchange.closed
  have indefinite := handedOn_names exchange.indefinite
  rw [Outcome.collect, fetch_document (congrFun read _) outputs,
    fetch_document (congrFun read _) closed, fetch_document (congrFun read _) state,
    fetch_document (congrFun read _) indefinite]
  rfl

/-- Outputs that nest too deeply are found when the results are collected. -/
theorem collect_deep_outputs {σ : Type} [Store σ] {store : σ} {exchange : Exchange}
    {below : Resource → Except IoError String}
    (wellFormed : (Document.toJson exchange.outputs).WellFormed)
    (deep : ¬ HandedOn exchange.outputs)
    (read : Store.read store = overlay exchange.text? below) :
    Outcome.collect store = .error (.invalid .outputValues .malformed) := by
  rw [Outcome.collect, fetch_beyond_limit (congrFun read _) wellFormed deep]
  rfl

/-- So is a state that nests too deeply. -/
theorem collect_deep_state {σ : Type} [Store σ] {store : σ} {exchange : Exchange}
    {below : Resource → Except IoError String} (outputs : HandedOn exchange.outputs)
    (wellFormed : (Document.toJson exchange.state).WellFormed)
    (deep : ¬ HandedOn exchange.state)
    (read : Store.read store = overlay exchange.text? below) :
    Outcome.collect store = .error (.invalid .stateOutput .malformed) := by
  have closed := handedOn_names exchange.closed
  rw [Outcome.collect, fetch_document (congrFun read _) outputs,
    fetch_document (congrFun read _) closed,
    fetch_beyond_limit (congrFun read _) wellFormed deep]
  rfl

/-! ## Runs of a worker -/

section Run

variable {σ α : Type} [Store σ] {work : Action Exchange ExchangeError α} {store : σ}

theorem runWorker_eq_of_error {error : ExchangeError}
    (failed : (work (Exchange.load store)).result = .error error) :
    runWorker work store =
      ⟨.error error, store, Exchange.loadEvents store ++ (work (Exchange.load store)).events⟩ := by
  rw [runWorker]
  simp only [failed]

theorem runWorker_eq_of_ok {value : α}
    (worked : (work (Exchange.load store)).result = .ok value) :
    runWorker work store =
      let written := (work (Exchange.load store)).state.finalize store
      ⟨written.result.map fun _ => value, written.state,
        Exchange.loadEvents store ++ (work (Exchange.load store)).events ++ written.events⟩ := by
  rw [runWorker]
  simp only [worked]

end Run

end RunExchange
