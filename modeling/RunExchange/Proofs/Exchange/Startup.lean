import Mathlib.Tactic
import RunExchange.Proofs.Store.Fetching
/-!
# Proofs.Exchange.Startup -- what an exchange starts with

Of each initial resource there is a document or a problem: the resource cannot be
read, or its text is no document of its type (`Store.problem?`).  Loading gives a
resource with a problem its default and any other one its document.  It notes the
resources with a problem, in the order of all initial ones, and reports for each
of them that the default was used, and nothing else (`Exchange.StartsFrom`).

The value of a resource follows from what is read of it, so stores that agree on
one resource load the same for it, whatever they hold elsewhere
(`startup_is_isolated`).
-/

namespace RunExchange

set_option autoImplicit false

/-! ## Problems -/

/-- Why a text is no document of the type. -/
def Document.fault? (α : Type) [Document α] (text : String) : Option Json.Fault :=
  match Document.decode (α := α) text with
  | .ok _ => none
  | .error fault => some fault

/-- Why a text is no document of the type of the resource. -/
def Resource.fault? (text : String) : Resource → Option Json.Fault
  | .inputValues | .stateVariables | .stateOutput => Document.fault? Values text
  | .requiredIfConnected | .closeOutputs | .indefiniteOutputs =>
      Document.fault? (List String) text
  | .declaredOutputs => Document.fault? DeclaredOutputs text
  | .runNumber => Document.fault? Int64 text
  | .outputValues => Document.fault? Emissions text

/-- The texts of the resource are documents of the type. -/
def Resource.HoldsA (resource : Resource) (α : Type) [Document α] : Prop :=
  ∀ text, resource.fault? text = Document.fault? α text

/-- Why a store has no document for a resource. -/
def Store.problem? {σ : Type} [Store σ] (store : σ) (resource : Resource) :
    Option ExchangeError :=
  match Store.read store resource with
  | .error cause => some (.io resource cause)
  | .ok text => (resource.fault? text).map (.invalid resource)

/-- The report that the default of a resource was used because of a problem. -/
def Resource.defaultUsed (resource : Resource) (problem : ExchangeError) : Event where
  severity := .debug
  origin := .startup
  message := s!"Using default for {resource.name}: {problem.message}"

/-- The value is the document of the resource, or the default if there is a
problem. -/
def Store.Supplies {σ α : Type} [Store σ] [Document α] (store : σ) (resource : Resource)
    (default value : α) : Prop :=
  match Store.problem? store resource with
  | none => ∃ text, Store.read store resource = .ok text ∧ Document.decode text = .ok value
  | some _ => value = default

/-! ## One resource -/

section Resources

variable {σ α : Type} [Store σ] [Document α] (store : σ) {resource : Resource}
  (typed : resource.HoldsA α)
include typed

/-- A resource is fetched as its document, or its problem is the error. -/
theorem fetch_cases :
    (∃ text document, Store.problem? store resource = none ∧
      Store.read store resource = .ok text ∧ Document.decode text = .ok document ∧
      Store.fetch (α := α) store resource = .ok document) ∨
    ∃ error, Store.problem? store resource = some error ∧
      Store.fetch (α := α) store resource = .error error := by
  cases read : Store.read store resource with
  | error cause =>
      refine .inr ⟨.io resource cause, ?_, ?_⟩
      · rw [Store.problem?, read]
      · rw [Store.fetch, read]
        rfl
  | ok text =>
      have fetched := fetch_of_read (α := α) read
      have problem : Store.problem? store resource =
          (Document.fault? α text).map (.invalid resource) := by
        rw [Store.problem?, read, ← typed]
      rw [Document.fault?] at problem
      cases decoded : Document.decode (α := α) text with
      | error fault =>
          rw [decoded] at fetched problem
          exact .inr ⟨.invalid resource fault, problem, fetched⟩
      | ok document =>
          rw [decoded] at fetched problem
          exact .inl ⟨text, document, problem, rfl, decoded, fetched⟩

/-- **A resource is loaded as its document, or as its default if there is a
problem.** -/
theorem loadOr_supplies (default : α) :
    (Exchange.loadOr store resource default).problem = Store.problem? store resource ∧
      Store.Supplies store resource default (Exchange.loadOr store resource default).value := by
  rcases fetch_cases store typed with
    ⟨text, document, problem, read, decoded, fetched⟩ | ⟨error, problem, fetched⟩
  · rw [loadOr_of_fetch fetched, Store.Supplies, problem]
    exact ⟨rfl, text, read, decoded⟩
  · rw [loadOr_of_error fetched, Store.Supplies, problem]
    exact ⟨rfl, rfl⟩

end Resources

/-! ## All initial resources -/

/-- The event says that the default of the resource was used because of its
problem. -/
def Store.Reports {σ : Type} [Store σ] (store : σ) (event : Event) (resource : Resource) : Prop :=
  ∃ problem, Store.problem? store resource = some problem ∧ event = resource.defaultUsed problem

/-- An exchange with what it noted and reported starts from the documents of a
store. -/
structure Exchange.StartsFrom {σ : Type} [Store σ] (store : σ) (loaded : Exchange)
    (events : List Event) : Prop where
  inputs : Store.Supplies store .inputValues ∅ loaded.inputs
  requiredIfConnected : Store.Supplies store .requiredIfConnected [] loaded.requiredIfConnected
  state : Store.Supplies store .stateVariables ∅ loaded.state
  /-- The names may come as a list or as an object. -/
  outputNames : ∃ declared : DeclaredOutputs,
    Store.Supplies store .declaredOutputs (.listed []) declared ∧
      loaded.outputNames = declared.toNames
  runNumber : Store.Supplies store .runNumber (-1 : Int64) loaded.runNumber
  /-- The resources with a problem are noted, in their order. -/
  defaulted : loaded.defaulted =
    Resource.initial.filter fun resource => (Store.problem? store resource).isSome
  /-- Each of them is reported, and nothing else is. -/
  events : List.Forall₂ (Store.Reports store) events loaded.defaulted

/-- What two stores load for a resource is the same if they agree on it. -/
structure Exchange.LoadsAlike {σ τ : Type} [Store σ] [Store τ] (store : σ) (other : τ) :
    Prop where
  inputs : Store.read store .inputValues = Store.read other .inputValues →
    (load store).inputs = (load other).inputs
  requiredIfConnected :
    Store.read store .requiredIfConnected = Store.read other .requiredIfConnected →
      (load store).requiredIfConnected = (load other).requiredIfConnected
  state : Store.read store .stateVariables = Store.read other .stateVariables →
    (load store).state = (load other).state
  outputNames : Store.read store .declaredOutputs = Store.read other .declaredOutputs →
    (load store).outputNames = (load other).outputNames
  runNumber : Store.read store .runNumber = Store.read other .runNumber →
    (load store).runNumber = (load other).runNumber
  /-- They also note it alike. -/
  defaulted : ∀ resource, Store.read store resource = Store.read other resource →
    (resource ∈ (load store).defaulted ↔ resource ∈ (load other).defaulted)

section Startup

variable {σ : Type} [Store σ] (store : σ)

section Loaded

variable {α : Type} {loaded : Loaded α} {resource : Resource}
  (problem : loaded.problem = Store.problem? store resource)
include problem

theorem note_eq_filter :
    loaded.note resource =
      [resource].filter fun resource => (Store.problem? store resource).isSome := by
  rw [Loaded.note, Loaded.defaulted, problem]
  cases found : Store.problem? store resource <;> simp [found]

/-- A resource is reported exactly if it is noted. -/
theorem reports_note :
    List.Forall₂ (Store.Reports store) (loaded.events resource) (loaded.note resource) := by
  rw [Loaded.events, Loaded.note, Loaded.defaulted, problem]
  cases found : Store.problem? store resource with
  | none => exact .nil
  | some error => exact .cons ⟨error, found, rfl⟩ .nil

end Loaded

/-- **Loading starts from the documents of the store**, their problems noted and
reported. -/
theorem startsFrom_load :
    (Exchange.load store).StartsFrom store (Exchange.loadEvents store) := by
  obtain ⟨inputsProblem, inputs⟩ : (Exchange.loadInputs store).problem = _ ∧ _ :=
    loadOr_supplies store (fun _ => rfl) ∅
  obtain ⟨requiredProblem, required⟩ : (Exchange.loadRequired store).problem = _ ∧ _ :=
    loadOr_supplies store (fun _ => rfl) []
  obtain ⟨stateProblem, state⟩ : (Exchange.loadState store).problem = _ ∧ _ :=
    loadOr_supplies store (fun _ => rfl) ∅
  -- The names are taken from what was loaded as declared outputs.
  obtain ⟨namesProblem, names⟩ : (Exchange.loadOutputNames store).problem = _ ∧ _ :=
    loadOr_supplies store (fun _ => rfl) (DeclaredOutputs.listed [])
  obtain ⟨numberProblem, number⟩ : (Exchange.loadRunNumber store).problem = _ ∧ _ :=
    loadOr_supplies store (fun _ => rfl) unknownRunNumber
  exact {
    inputs := inputs
    requiredIfConnected := required
    state := state
    outputNames := ⟨_, names, rfl⟩
    runNumber := number
    defaulted := by
      rw [Exchange.load, note_eq_filter store inputsProblem, note_eq_filter store requiredProblem,
        note_eq_filter store stateProblem, note_eq_filter store namesProblem,
        note_eq_filter store numberProblem]
      simp only [← List.filter_append]
      rfl
    events :=
      List.rel_append
        (List.rel_append
          (List.rel_append
            (List.rel_append (reports_note store inputsProblem)
              (reports_note store requiredProblem))
            (reports_note store stateProblem))
          (reports_note store namesProblem))
        (reports_note store numberProblem) }

/-- Whether there is a problem with a resource follows from what is read of it. -/
theorem problem?_of_same {τ : Type} [Store τ] {other : τ} {resource : Resource}
    (same : Store.read store resource = Store.read other resource) :
    Store.problem? store resource = Store.problem? other resource := by
  rw [Store.problem?, Store.problem?, same]

/-- **Each resource is loaded from what is read of it.** -/
theorem loadsAlike {τ : Type} [Store τ] (other : τ) : Exchange.LoadsAlike store other where
  inputs same := congrArg Loaded.value (loadOr_of_same same _)
  requiredIfConnected same := congrArg Loaded.value (loadOr_of_same same _)
  state same := congrArg Loaded.value (loadOr_of_same same _)
  outputNames same :=
    congrArg (DeclaredOutputs.toNames ∘ Loaded.value)
      (loadOr_of_same same (DeclaredOutputs.listed []))
  runNumber same := congrArg Loaded.value (loadOr_of_same same _)
  defaulted resource same := by
    rw [(startsFrom_load store).defaulted, (startsFrom_load other).defaulted, List.mem_filter,
      List.mem_filter, problem?_of_same store same]

end Startup

/-- **The start of an exchange is isolated.**  Each initial resource is loaded as
its document or its default; those with a problem are noted and reported in order;
and what is loaded of one resource is the same from any two stores in which it
reads alike. -/
theorem startup_is_isolated {σ : Type} [Store σ] (store : σ) :
    (Exchange.load store).StartsFrom store (Exchange.loadEvents store) ∧
      ∀ (τ : Type) [Store τ] (other : τ), Exchange.LoadsAlike store other :=
  ⟨startsFrom_load store, fun _ _ other => loadsAlike store other⟩

/-- The run number is loaded alike whether the inputs are missing or damaged. -/
theorem missing_inputs_are_isolated :
    let bare := MemoryStore.empty.set .runNumber "3"
    let damaged := bare.set .inputValues "[]"
    (Exchange.load bare).runNumber = (Exchange.load damaged).runNumber ∧
      .inputValues ∈ (Exchange.load bare).defaulted := by
  intro bare damaged
  obtain ⟨starts, alike⟩ := startup_is_isolated bare
  refine ⟨(alike MemoryStore damaged).runNumber rfl, ?_⟩
  rw [starts.defaulted]
  exact List.mem_filter.2 ⟨by decide, rfl⟩

end RunExchange
