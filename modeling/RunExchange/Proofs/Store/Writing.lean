import Mathlib.Tactic
import RunExchange.Proofs.Store.Keeping
/-!
# Proofs.Store.Writing -- writing again, and writing without failures

In a settled store, writing in turn can be done again: the texts that were
written are there and are written as they are, and the one that could not be
written still cannot (`Settled.putAll_again`).  In a ready store it does not stop
(`Ready.putAll_ok`).  So it is with staging and finalizing.
-/

namespace RunExchange

set_option autoImplicit false

/-! ## Stores in which writing settles -/

/-- Stores that keep what is written to them, in which a text that is there
already is written without a change, and which announce a write in the same way
whatever was written. -/
structure Store.Settled (σ : Type) [Store σ] (good : σ → Prop) : Prop extends
    Store.Keeping σ good where
  again {store : σ} {resource : Resource} {text : String} :
    good store → Store.read store resource = .ok text →
      Store.write store resource text = .ok store
  announce {store written : σ} {resource : Resource} {text : String} :
    good store → Store.write store resource text = .ok written →
      Store.announce written = Store.announce store

/-- Stores that keep what is written to them and in which every write succeeds. -/
structure Store.Ready (σ : Type) [Store σ] (good : σ → Prop) : Prop extends
    Store.Keeping σ good where
  succeeds {store : σ} (resource : Resource) (text : String) :
    good store → ∃ written, Store.write store resource text = .ok written

namespace Store

variable {σ : Type} [Store σ] {good : σ → Prop} {store : σ}

theorem Settled.announce_putAll (settled : Settled σ good) (here : good store)
    (writes : List (Resource × String)) :
    Store.announce (Store.putAll writes store).state = Store.announce store := by
  induction writes generalizing store with
  | nil => rfl
  | cons write writes ih =>
      cases done : Store.write store write.1 write.2 with
      | error cause => rw [putAll_of_error done]
      | ok written =>
          rw [putAll_of_ok done]
          exact (ih (settled.write here done).1).trans (settled.announce here done)

/-- **Writing in turn can be done again** and goes as it went, also when it
stopped on the way. -/
theorem Settled.putAll_again (settled : Settled σ good) (here : good store)
    {writes : List (Resource × String)} (distinct : (writes.map Prod.fst).Nodup) :
    Store.putAll writes (Store.putAll writes store).state = Store.putAll writes store := by
  induction writes generalizing store with
  | nil => rfl
  | cons write writes ih =>
      rw [List.map_cons, List.nodup_cons] at distinct
      cases done : Store.write store write.1 write.2 with
      | error cause => simp only [putAll_of_error done]
      | ok written =>
          obtain ⟨kept, read⟩ := settled.write here done
          -- The writes that follow leave the first text where it is.
          obtain ⟨left, frame⟩ := settled.toKeeping.putAll kept writes
          have held : Store.read (Store.putAll writes written).state write.1 = .ok write.2 := by
            rw [frame write.1 distinct.1, read, Function.update_self]
          have announced : Store.announce (Store.putAll writes written).state =
              Store.announce store :=
            (settled.announce_putAll kept writes).trans (settled.announce here done)
          simp only [putAll_of_ok done, putAll_of_ok (settled.again left held), announced,
            ih kept distinct.2]

theorem Ready.putAll_ok (ready : Ready σ good) (here : good store)
    (writes : List (Resource × String)) : (Store.putAll writes store).result = .ok () := by
  induction writes generalizing store with
  | nil => rfl
  | cons write writes ih =>
      obtain ⟨written, done⟩ := ready.succeeds write.1 write.2 here
      rw [putAll_of_ok done]
      exact ih (ready.write here done).1

end Store

/-! ## Staging and finalizing -/

section Documents

variable {σ : Type} [Store σ] {good : σ → Prop} {store : σ}

theorem Request.nodup_texts (request : Request) : (request.texts.map Prod.fst).Nodup := by
  show [Resource.inputValues, .requiredIfConnected, .declaredOutputs, .stateVariables,
    .runNumber].Nodup
  decide

theorem Exchange.nodup_texts (exchange : Exchange) : (exchange.texts.map Prod.fst).Nodup := by
  show Resource.results.Nodup
  decide

theorem Store.Ready.stage_ok (ready : Store.Ready σ good) (here : good store)
    (request : Request) : (request.stage store).result = .ok () := by
  rw [stage_eq, Action.bind_emit]
  exact ready.putAll_ok here _

theorem Store.Ready.finalize_ok (ready : Store.Ready σ good) (here : good store)
    (exchange : Exchange) : (exchange.finalize store).result = .ok () := by
  rw [finalize_eq, Action.bind_emit]
  exact ready.putAll_ok here _

/-- **Finalizing can be done again** and goes as it went. -/
theorem Store.Settled.finalize_again (settled : Store.Settled σ good) (here : good store)
    (exchange : Exchange) :
    exchange.finalize (exchange.finalize store).state = exchange.finalize store := by
  simp only [finalize_eq, Action.bind_emit,
    settled.putAll_again here exchange.nodup_texts]

end Documents

/-! ## In memory -/

theorem MemoryStore.settled : Store.Settled MemoryStore fun _ => True where
  toKeeping := MemoryStore.keeping
  again := by
    intro store resource text _ read
    have held : store.text resource = some text := by
      simp only [Store.read] at read
      split at read
      · cases read
      · next there => rw [there, Except.ok.inj read]
    show Except.ok (store.set resource text) = .ok store
    refine congrArg Except.ok (congrArg MemoryStore.mk (funext fun other => ?_))
    by_cases same : other = resource
    · rw [if_pos same, same, held]
    · rw [if_neg same]
  announce := fun _ _ => rfl

theorem MemoryStore.ready : Store.Ready MemoryStore fun _ => True where
  toKeeping := MemoryStore.keeping
  succeeds _ _ _ := ⟨_, rfl⟩

end RunExchange
