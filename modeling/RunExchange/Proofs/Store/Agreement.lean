import Mathlib.Tactic
import RunExchange.Proofs.Store.Keeping
/-!
# Proofs.Store.Agreement -- what is done with a store depends on its texts alone

Two stores agree step by step if reading gives the same answer in both and
writing succeeds in both (`Store.Simulation`).  Whatever is done with them then
gives the same answers and keeps them related: single reads and writes, loading,
finalizing, whole runs of a worker, staging and collecting, in any order
(`Simulation.trace`).

Answers are the same when they are equal, or when both say that the same resource
was not found, in whatever words.
-/

namespace RunExchange

set_option autoImplicit false

/-! ## Answers -/

/-- Two answers are equal, or both say that a resource was not found. -/
inductive SameAnswer {α : Type} :
    Except ExchangeError α → Except ExchangeError α → Prop
  | same (answer : Except ExchangeError α) : SameAnswer answer answer
  | notFound (resource : Resource) (left right : IoError) :
      left.kind = "NotFound" → right.kind = "NotFound" →
      SameAnswer (.error (.io resource left)) (.error (.io resource right))

namespace SameAnswer

variable {α β : Type} {left right : Except ExchangeError α}

theorem bind {next : α → Except ExchangeError β} {other : α → Except ExchangeError β}
    (first : SameAnswer left right) (later : ∀ value, SameAnswer (next value) (other value)) :
    SameAnswer (left >>= next) (right >>= other) := by
  cases first with
  | same =>
      cases left with
      | error error => exact .same _
      | ok value => exact later value
  | notFound resource left right here there => exact .notFound resource left right here there

theorem map (f : α → β) (first : SameAnswer left right) :
    SameAnswer (left.map f) (right.map f) := by
  cases first with
  | same => exact .same _
  | notFound resource left right here there => exact .notFound resource left right here there

end SameAnswer

/-! ## Actions -/

/-- Related states give the same answers and stay related. -/
def Agree {σ τ α : Type} (R : σ → τ → Prop) (left : Action σ ExchangeError α)
    (right : Action τ ExchangeError α) : Prop :=
  ∀ s t, R s t → SameAnswer (left s).result (right t).result ∧ R (left s).state (right t).state

namespace Agree

variable {σ τ α β : Type} {R : σ → τ → Prop}

theorem pure (value : α) : Agree R (Pure.pure value) (Pure.pure value) :=
  fun _ _ related => ⟨.same _, related⟩

theorem emit (event : Event) : Agree R (Action.emit event) (Action.emit event) :=
  fun _ _ related => ⟨.same _, related⟩

theorem bind {left : Action σ ExchangeError α} {right : Action τ ExchangeError α}
    {next : α → Action σ ExchangeError β} {other : α → Action τ ExchangeError β}
    (first : Agree R left right) (later : ∀ value, Agree R (next value) (other value)) :
    Agree R (left >>= next) (right >>= other) := by
  intro s t related
  obtain ⟨answers, states⟩ := first s t related
  change SameAnswer (Action.bind left next s).result (Action.bind right other t).result ∧
    R (Action.bind left next s).state (Action.bind right other t).state
  rw [Action.bind, Action.bind]
  generalize (left s).result = leftResult at answers
  generalize (right t).result = rightResult at answers
  cases answers with
  | same =>
      cases leftResult with
      | error error => exact ⟨.same _, states⟩
      | ok value => exact later value _ _ states
  | notFound resource here there first second =>
      exact ⟨.notFound resource here there first second, states⟩

end Agree

/-! ## Calls -/

/-- What can be done with a store; a worker may do anything and returns an `α`. -/
inductive Call (α : Type)
  | read (resource : Resource)
  | write (resource : Resource) (text : String)
  | load
  | finalize (exchange : Exchange)
  | runWorker (work : Action Exchange ExchangeError α)
  | stage (request : Request)
  | collect

inductive Reply (α : Type)
  | done
  | text (text : String)
  | exchange (exchange : Exchange)
  | value (value : α)
  | outcome (outcome : Outcome)

namespace Call

variable {σ α : Type} [Store σ]

/-- Carry out a call. -/
def perform : Call α → Action σ ExchangeError (Reply α)
  | .read resource => fun store =>
      ⟨((Store.read store resource).mapError (.io resource)).map .text, store, []⟩
  | .write resource text => do
      Store.put resource text
      return .done
  | .load => fun store => ⟨.ok (.exchange (Exchange.load store)), store, Exchange.loadEvents store⟩
  | .finalize exchange => do
      exchange.finalize
      return .done
  | .runWorker work => do return .value (← RunExchange.runWorker work)
  | .stage request => do
      request.stage
      return .done
  | .collect => fun store => ⟨(Outcome.collect store).map .outcome, store, []⟩

/-- The answers to calls, each with the store after it. -/
def trace : List (Call α) → σ → List (Except ExchangeError (Reply α) × σ)
  | [], _ => []
  | call :: calls, store =>
      let report := call.perform store
      (report.result, report.state) :: trace calls report.state

end Call

/-! ## Simulation -/

/-- Related stores read alike and can be written alike. -/
structure Store.Simulation {σ τ : Type} [Store σ] [Store τ] (R : σ → τ → Prop) : Prop where
  read {s : σ} {t : τ} (resource : Resource) : R s t →
    SameAnswer ((Store.read s resource).mapError (.io resource))
      ((Store.read t resource).mapError (.io resource))
  write {s : σ} {t : τ} (resource : Resource) (text : String) : R s t →
    ∃ left right, Store.write s resource text = .ok left ∧
      Store.write t resource text = .ok right ∧ R left right

namespace Store.Simulation

variable {σ τ α : Type} [Store σ] [Store τ] {R : σ → τ → Prop}
  (simulation : Store.Simulation R)
include simulation

theorem put (resource : Resource) (text : String) :
    Agree R (Store.put resource text) (Store.put resource text) := by
  intro s t related
  obtain ⟨left, right, first, second, still⟩ := simulation.write resource text related
  rw [Store.put, Store.put, first, second]
  exact ⟨.same _, still⟩

theorem putAll (writes : List (Resource × String)) :
    Agree R (Store.putAll writes) (Store.putAll writes) := by
  induction writes with
  | nil => exact Agree.pure ()
  | cons write writes ih => exact Agree.bind (simulation.put write.1 write.2) fun _ => ih

theorem stage (request : Request) : Agree R request.stage request.stage := by
  rw [stage_eq, stage_eq]
  exact Agree.bind (simulation.putAll _) fun _ => Agree.emit _

theorem finalize (exchange : Exchange) : Agree R exchange.finalize exchange.finalize := by
  rw [finalize_eq, finalize_eq]
  exact Agree.bind (simulation.putAll _) fun _ => Agree.emit _

theorem fetch [Document α] {s : σ} {t : τ} (related : R s t) (resource : Resource) :
    SameAnswer (Store.fetch (α := α) s resource) (Store.fetch t resource) :=
  (simulation.read resource related).bind fun _ => .same _

theorem collect {s : σ} {t : τ} (related : R s t) :
    SameAnswer (Outcome.collect s) (Outcome.collect t) := by
  refine SameAnswer.bind (simulation.fetch related _) fun outputs => ?_
  refine SameAnswer.bind (simulation.fetch related _) fun closed => ?_
  refine SameAnswer.bind (simulation.fetch related _) fun state => ?_
  refine SameAnswer.bind (simulation.fetch related _) fun indefinite => ?_
  exact .same _

/-- The same document is loaded, and the default is used in both or in neither. -/
theorem loadOr [Document α] {s : σ} {t : τ} (related : R s t) (resource : Resource)
    (default : α) :
    (Exchange.loadOr s resource default).value = (Exchange.loadOr t resource default).value ∧
      (Exchange.loadOr s resource default).note resource =
        (Exchange.loadOr t resource default).note resource := by
  have fetched := simulation.fetch (α := α) related resource
  rw [Exchange.loadOr, Exchange.loadOr]
  generalize Store.fetch (α := α) s resource = left at fetched
  generalize Store.fetch (α := α) t resource = right at fetched
  cases fetched with
  | same answer => exact ⟨rfl, rfl⟩
  | notFound => exact ⟨rfl, rfl⟩

theorem load {s : σ} {t : τ} (related : R s t) : Exchange.load s = Exchange.load t := by
  obtain ⟨inputs, noInputs⟩ := simulation.loadOr related .inputValues (∅ : Values)
  obtain ⟨required, noRequired⟩ := simulation.loadOr related .requiredIfConnected ([] : List String)
  obtain ⟨state, noState⟩ := simulation.loadOr related .stateVariables (∅ : Values)
  obtain ⟨names, noNames⟩ := simulation.loadOr related .declaredOutputs (DeclaredOutputs.listed [])
  obtain ⟨number, noNumber⟩ := simulation.loadOr related .runNumber unknownRunNumber
  have toNames (store : σ) (other : τ)
      (same : (Exchange.loadOr store .declaredOutputs (DeclaredOutputs.listed [])).value =
        (Exchange.loadOr other .declaredOutputs (DeclaredOutputs.listed [])).value) :
      (Exchange.loadOutputNames store).value = (Exchange.loadOutputNames other).value :=
    congrArg DeclaredOutputs.toNames same
  rw [Exchange.load, Exchange.load, Exchange.mk.injEq]
  refine ⟨inputs, required, toNames s t names, rfl, rfl, rfl, state, number, ?_⟩
  exact congrArg₂ _ (congrArg₂ _ (congrArg₂ _ (congrArg₂ _ noInputs noRequired) noState) noNames)
    noNumber

theorem runWorker (work : Action Exchange ExchangeError α) :
    Agree R (RunExchange.runWorker work) (RunExchange.runWorker work) := by
  intro s t related
  rw [RunExchange.runWorker, RunExchange.runWorker, simulation.load related]
  cases (work (Exchange.load t)).result with
  | error error => exact ⟨.same _, related⟩
  | ok value =>
      obtain ⟨answers, states⟩ :=
        simulation.finalize (work (Exchange.load t)).state s t related
      exact ⟨answers.map fun _ => value, states⟩

/-- **One call** gives the same answer and keeps the stores related. -/
theorem perform (call : Call α) : Agree R call.perform call.perform := by
  cases call with
  | read resource =>
      exact fun s t related => ⟨(simulation.read resource related).map _, related⟩
  | write resource text => exact Agree.bind (simulation.put resource text) fun _ => Agree.pure _
  | load =>
      intro s t related
      refine ⟨?_, related⟩
      change SameAnswer (α := Reply α) (.ok (.exchange (Exchange.load s)))
        (.ok (.exchange (Exchange.load t)))
      rw [simulation.load related]
      exact .same _
  | finalize exchange => exact Agree.bind (simulation.finalize exchange) fun _ => Agree.pure _
  | runWorker work => exact Agree.bind (simulation.runWorker work) fun _ => Agree.pure _
  | stage request => exact Agree.bind (simulation.stage request) fun _ => Agree.pure _
  | collect => exact fun s t related => ⟨(simulation.collect related).map _, related⟩

/-- **Any calls** give the same answers and keep the stores related after each. -/
theorem trace (calls : List (Call α)) {s : σ} {t : τ} (related : R s t) :
    List.Forall₂ (fun left right => SameAnswer left.1 right.1 ∧ R left.2 right.2)
      (Call.trace calls s) (Call.trace calls t) := by
  induction calls generalizing s t with
  | nil => exact .nil
  | cons call calls ih =>
      have step := simulation.perform call s t related
      exact .cons step (ih step.2)

end Store.Simulation

end RunExchange
