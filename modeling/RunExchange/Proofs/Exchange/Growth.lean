import Mathlib.Tactic
import RunExchange.Proofs.Exchange.Delivery
/-!
# Proofs.Exchange.Growth -- what holds of an exchange at any time of a run

An exchange speaks of declared outputs only, and of each of them once
(`Consistent`).  That holds when it is loaded, whatever the store holds, and every
operation preserves it.

An operation adds to what an exchange has produced and takes nothing away
(`Extends`): marked names and state variables come at the end of those before
them, values at the end of their output, and what was loaded stays.  So of two
moments of a run the later one extends the earlier one (`runs_only_add`).
-/

namespace RunExchange

set_option autoImplicit false

/-! ## Lists that grow -/

/-- What every step adds at the end, all steps add at the end. -/
theorem prefix_foldl {α β γ : Type} (view : β → List γ) {step : β → α → β}
    (grows : ∀ state item, view state <+: view (step state item)) (items : List α) (state : β) :
    view state <+: view (items.foldl step state) := by
  induction items generalizing state with
  | nil => exact List.prefix_refl _
  | cons item items ih => exact (grows state item).trans (ih (step state item))

theorem Table.keys_prefix_insert {α : Type} (table : Table α) (name : String) (value : α) :
    table.keys <+: (table.insert name value).keys := by
  rw [Table.keys_insert]
  split
  · exact List.prefix_refl _
  · exact List.prefix_append _ _

namespace Operation

variable (declared : List String) (operation : Operation)

theorem declared_of_emits : ∀ emission ∈ operation.emits declared, emission.1 ∈ declared := by
  intro emission here
  have alone : emission.2 ∈ emitted declared emission.1 [operation] :=
    List.mem_filterMap.2
      ⟨emission, List.mem_flatMap.2 ⟨operation, List.mem_singleton_self _, here⟩, if_pos rfl⟩
  exact (mem_emitted_iff.1 alone).1

theorem declared_of_closes : ∀ name ∈ operation.closes declared, name ∈ declared := by
  intro name here
  have alone : name ∈ [operation].flatMap (closes declared) :=
    List.mem_flatMap.2 ⟨operation, List.mem_singleton_self _, here⟩
  exact (mem_closes_iff.1 alone).1

theorem declared_of_leaves : ∀ name ∈ operation.leaves declared, name ∈ declared := by
  intro name here
  have alone : name ∈ [operation].flatMap (leaves declared) :=
    List.mem_flatMap.2 ⟨operation, List.mem_singleton_self _, here⟩
  exact (mem_leaves_iff.1 alone).1

end Operation

namespace Exchange

theorem prefix_mark (name : String) (names : List String) : names <+: mark name names := by
  rw [mark]
  split
  · exact List.prefix_refl _
  · exact List.prefix_append _ _

theorem prefix_markAll (names marked : List String) : marked <+: markAll names marked :=
  prefix_foldl id (fun marked name => prefix_mark name marked) names marked

theorem keys_prefix_storeAll (additions : List (String × Json)) (state : Values) :
    state.keys <+: (storeAll additions state).keys :=
  prefix_foldl Table.keys
    (fun state (stored : String × Json) => state.keys_prefix_insert stored.1 stored.2) additions
    state

theorem nodup_mark {names : List String} (distinct : names.Nodup) (name : String) :
    (mark name names).Nodup := by
  rw [mark]
  split
  · exact distinct
  · next absent =>
      refine List.nodup_append.2 ⟨distinct, List.nodup_singleton name, ?_⟩
      rintro other here last there rfl
      exact absent (List.mem_singleton.1 there ▸ here)

/-- Marked names are different and satisfy what the marks satisfy. -/
theorem markAll_keeps {property : String → Prop} {names marked : List String}
    (new : ∀ name ∈ names, property name) (distinct : marked.Nodup)
    (old : ∀ name ∈ marked, property name) :
    (markAll names marked).Nodup ∧ ∀ name ∈ markAll names marked, property name := by
  induction names generalizing marked with
  | nil => exact ⟨distinct, old⟩
  | cons name names ih =>
      rw [markAll, List.foldl_cons, ← markAll]
      refine ih (fun other there => new other (List.mem_cons_of_mem _ there))
        (nodup_mark distinct name) ?_
      intro other here
      rw [mark] at here
      split at here
      · exact old other here
      · rcases List.mem_append.1 here with before | last
        · exact old other before
        · exact List.mem_singleton.1 last ▸ new name List.mem_cons_self

/-- Values that are emitted come after those emitted before. -/
theorem exists_find?_emitAll (emissions : List (String × Json)) {outputs : Emissions}
    {name : String} {values : List Json} (found : outputs.find? name = some values) :
    ∃ later, (emitAll emissions outputs).find? name = some later ∧ values <+: later := by
  rw [find?_emitAll, found]
  dsimp only
  split
  · exact ⟨values, rfl, List.prefix_refl _⟩
  · exact ⟨_, rfl, List.prefix_append values _⟩

/-- Outputs that have values are declared, and an output without values is not
kept. -/
theorem emitAll_keeps {declared : List String} {emissions : List (String × Json)}
    {outputs : Emissions} (new : ∀ emission ∈ emissions, emission.1 ∈ declared)
    (old : ∀ name values, outputs.find? name = some values → name ∈ declared ∧ values ≠ []) :
    ∀ name values, (emitAll emissions outputs).find? name = some values →
      name ∈ declared ∧ values ≠ [] := by
  intro name values found
  rw [find?_emitAll] at found
  dsimp only at found
  split at found
  · exact old name values found
  · next something =>
      obtain ⟨value, gathered⟩ := List.exists_mem_of_ne_nil _ something
      obtain ⟨emission, emitted, kept⟩ := List.mem_filterMap.1 gathered
      obtain ⟨rfl, -⟩ := Option.ite_none_right_eq_some.1 kept
      refine ⟨new emission emitted, ?_⟩
      rw [← Option.some.inj found]
      exact List.append_ne_nil_of_right_ne_nil _ something

/-! ## What holds at any time -/

/-- What the exchange has produced belongs to declared outputs, and no name is
repeated. -/
structure Consistent (exchange : Exchange) : Prop where
  closedOnce : exchange.closed.Nodup
  closedDeclared : ∀ name ∈ exchange.closed, name ∈ exchange.outputNames
  indefiniteOnce : exchange.indefinite.Nodup
  indefiniteDeclared : ∀ name ∈ exchange.indefinite, name ∈ exchange.outputNames
  /-- Values are kept for declared outputs only, and only if there are any. -/
  outputs : ∀ name values, exchange.outputs.find? name = some values →
    name ∈ exchange.outputNames ∧ values ≠ []
  outputsOnce : exchange.outputs.keys.Nodup
  stateOnce : exchange.state.keys.Nodup

/-- The later exchange has what the earlier one has, and perhaps more. -/
structure Extends (before after : Exchange) : Prop where
  inputs : after.inputs = before.inputs
  requiredIfConnected : after.requiredIfConnected = before.requiredIfConnected
  outputNames : after.outputNames = before.outputNames
  runNumber : after.runNumber = before.runNumber
  defaulted : after.defaulted = before.defaulted
  closed : before.closed <+: after.closed
  indefinite : before.indefinite <+: after.indefinite
  outputs : ∀ name values, before.outputs.find? name = some values →
    ∃ later, after.outputs.find? name = some later ∧ values <+: later
  state : before.state.keys <+: after.state.keys

theorem Extends.refl (exchange : Exchange) : exchange.Extends exchange where
  inputs := rfl
  requiredIfConnected := rfl
  outputNames := rfl
  runNumber := rfl
  defaulted := rfl
  closed := List.prefix_refl _
  indefinite := List.prefix_refl _
  outputs _ values found := ⟨values, found, List.prefix_refl _⟩
  state := List.prefix_refl _

theorem Extends.trans {a b c : Exchange} (first : a.Extends b) (second : b.Extends c) :
    a.Extends c where
  inputs := second.inputs.trans first.inputs
  requiredIfConnected := second.requiredIfConnected.trans first.requiredIfConnected
  outputNames := second.outputNames.trans first.outputNames
  runNumber := second.runNumber.trans first.runNumber
  defaulted := second.defaulted.trans first.defaulted
  closed := first.closed.trans second.closed
  indefinite := first.indefinite.trans second.indefinite
  outputs name values found := by
    obtain ⟨between, foundThen, grown⟩ := first.outputs name values found
    obtain ⟨later, foundLast, grownThen⟩ := second.outputs name between foundThen
    exact ⟨later, foundLast, grown.trans grownThen⟩
  state := first.state.trans second.state

/-! ## One operation -/

theorem Consistent.perform {exchange : Exchange} (consistent : exchange.Consistent)
    (operation : Operation) : (Exchange.perform operation exchange).state.Consistent := by
  have closed := markAll_keeps (operation.declared_of_closes exchange.outputNames)
    consistent.closedOnce consistent.closedDeclared
  have indefinite := markAll_keeps (operation.declared_of_leaves exchange.outputNames)
    consistent.indefiniteOnce consistent.indefiniteDeclared
  have outputs := emitAll_keeps (operation.declared_of_emits exchange.outputNames)
    consistent.outputs
  rw [state_perform]
  exact ⟨closed.1, closed.2, indefinite.1, indefinite.2, outputs, SortedTable.nodup_keys _,
    Table.nodup _⟩

theorem extends_perform (operation : Operation) (exchange : Exchange) :
    exchange.Extends (perform operation exchange).state := by
  rw [state_perform]
  exact {
    inputs := rfl
    requiredIfConnected := rfl
    outputNames := rfl
    runNumber := rfl
    defaulted := rfl
    closed := prefix_markAll _ _
    indefinite := prefix_markAll _ _
    outputs := fun _ _ found => exists_find?_emitAll _ found
    state := keys_prefix_storeAll _ _ }

/-! ## Runs -/

theorem consistent_load {σ : Type} [Store σ] (store : σ) : (load store).Consistent where
  closedOnce := List.nodup_nil
  closedDeclared := nofun
  indefiniteOnce := List.nodup_nil
  indefiniteDeclared := nofun
  outputs := nofun
  outputsOnce := List.nodup_nil
  stateOnce := Table.nodup _

theorem Consistent.performAll {exchange : Exchange} (consistent : exchange.Consistent)
    (operations : List Operation) : (exchange.performAll operations).Consistent := by
  induction operations generalizing exchange with
  | nil => exact consistent
  | cons operation operations ih => exact ih (consistent.perform operation)

theorem extends_performAll (operations : List Operation) (exchange : Exchange) :
    exchange.Extends (exchange.performAll operations) := by
  induction operations generalizing exchange with
  | nil => exact .refl exchange
  | cons operation operations ih => exact (extends_perform operation exchange).trans (ih _)

/-- **A run only adds to an exchange**, whatever the store holds and whichever
operations fail: the exchange is consistent at any time, it still holds what was
loaded, and at any later time it holds what it holds now. -/
theorem runs_only_add {σ : Type} [Store σ] (store : σ) (operations more : List Operation) :
    let loaded := load store
    let earlier := loaded.performAll operations
    let later := loaded.performAll (operations ++ more)
    earlier.Consistent ∧ loaded.Extends earlier ∧ earlier.Extends later := by
  intro loaded earlier later
  have continued : later = earlier.performAll more := List.foldl_append
  refine ⟨(consistent_load store).performAll operations, extends_performAll operations loaded, ?_⟩
  rw [continued]
  exact extends_performAll more earlier

end Exchange

end RunExchange
