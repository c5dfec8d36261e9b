import Mathlib.Tactic
import RunExchange.Proofs.Store.Fetching
import RunExchange.Proofs.Store.Prefix
/-!
# Proofs.Exchange.Repetition -- a run of a worker can be repeated

A run reads initial resources and writes results, and these are different files.
So a second run with the same work loads what the first one loaded and works on
it in the same way; and it writes what is there already, as far as the first one
came.  It ends as the first one ended and leaves the store as that left it
(`worker_runs_repeat`), also if finalizing stopped on the way.

A run whose work fails has written nothing at all.
-/

namespace RunExchange

set_option autoImplicit false

/-- A run of a worker changes nothing if the work fails and only results if it
does not, and a second run goes as the first one. -/
structure Repeatable {σ α : Type} [Store σ] (work : Action Exchange ExchangeError α)
    (store : σ) : Prop where
  /-- The run of work that fails has its error and leaves the store alone. -/
  aborts : ∀ error, (work (Exchange.load store)).result = .error error →
    (runWorker work store).result = .error error ∧ (runWorker work store).state = store
  /-- What is no result is read as before. -/
  others : ∀ resource ∉ Resource.results,
    Store.read (runWorker work store).state resource = Store.read store resource
  /-- The second run has the same result, events and store. -/
  again : runWorker work (runWorker work store).state = runWorker work store

section Repeat

variable {σ α : Type} [Store σ] {good : σ → Prop} {store : σ}

theorem Store.Keeping.read_runWorker (keeping : Store.Keeping σ good) (here : good store)
    (work : Action Exchange ExchangeError α) :
    ∀ resource ∉ Resource.results,
      Store.read (runWorker work store).state resource = Store.read store resource := by
  cases worked : (work (Exchange.load store)).result with
  | error error =>
      rw [runWorker_eq_of_error worked]
      exact fun _ _ => rfl
  | ok value =>
      rw [runWorker_eq_of_ok worked]
      exact (keeping.read_finalize here _).2

/-- **In a settled store every run can be repeated.** -/
theorem Store.Settled.repeatable (settled : Store.Settled σ good) (here : good store)
    (work : Action Exchange ExchangeError α) : Repeatable work store where
  aborts error failed := by
    rw [runWorker_eq_of_error failed]
    exact ⟨rfl, rfl⟩
  others := settled.read_runWorker here work
  again := by
    -- The second run loads what the first one loaded.
    obtain ⟨loaded, reported⟩ : Exchange.load (runWorker work store).state = Exchange.load store ∧
        Exchange.loadEvents (runWorker work store).state = Exchange.loadEvents store := by
      refine load_of_same fun resource initial => settled.read_runWorker here work resource ?_
      revert initial
      cases resource <;> decide
    cases worked : (work (Exchange.load store)).result with
    | error error =>
        have unchanged : (runWorker work store).state = store := by
          rw [runWorker_eq_of_error worked]
        rw [unchanged]
    | ok value =>
        have left : (runWorker work store).state =
            ((work (Exchange.load store)).state.finalize store).state := by
          rw [runWorker_eq_of_ok worked]
        rw [runWorker_eq_of_ok (loaded ▸ worked), loaded, reported, left,
          settled.finalize_again here, runWorker_eq_of_ok worked]

end Repeat

/-- A run in a directory changes nothing but the files of results. -/
theorem DirectoryStore.frame_runWorker {α : Type} {store : DirectoryStore}
    (valid : store.layout.Valid) (work : Action Exchange ExchangeError α) :
    Frame Resource.results store (runWorker work store).state := by
  cases worked : (work (Exchange.load store)).result with
  | error error =>
      rw [runWorker_eq_of_error worked]
      exact .refl _ store
  | ok value =>
      rw [runWorker_eq_of_ok worked]
      have wrote := finalize_wroteInTurn valid (work (Exchange.load store)).state
      exact wrote.frame.mono fun _ here => mem_of_mem_landed here

/-- **A run of a worker can be repeated and aborted**, in memory and in any
directory, whatever the work does. -/
theorem worker_runs_repeat {α : Type} (work : Action Exchange ExchangeError α) :
    (∀ store : MemoryStore, Repeatable work store) ∧
      ∀ store : DirectoryStore, store.layout.validate = .ok () →
        Repeatable work store ∧
          DirectoryStore.Frame Resource.results store (runWorker work store).state := by
  constructor
  · intro store
    exact MemoryStore.settled.repeatable trivial work
  · intro store passed
    have valid := (Layout.validate_eq_ok_iff _).1 passed
    exact ⟨DirectoryStore.settled.repeatable valid work,
      DirectoryStore.frame_runWorker valid work⟩

/-- A run that cannot write the state stops there, the first time and the second. -/
theorem blocked_run_repeats :
    let work : Action Exchange ExchangeError Answer := Exchange.perform .closeAllOutputs
    runWorker work (runWorker work DirectoryStore.blocked).state =
        runWorker work DirectoryStore.blocked ∧
      (runWorker work DirectoryStore.blocked).state.bytes .runNumber =
        DirectoryStore.blocked.bytes .runNumber := by
  intro work
  obtain ⟨repeatable, frame⟩ := (worker_runs_repeat work).2 DirectoryStore.blocked (by decide)
  exact ⟨repeatable.again, frame.bytes .runNumber (by decide)⟩

end RunExchange
