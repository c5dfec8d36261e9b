import Mathlib.Tactic
import RunExchange.Proofs.Exchange.Variables
/-!
# Proofs.Exchange.Channels -- operations on different channels do not interfere

An exchange has independent channels: the values of each output, the closed
outputs, the outputs left indefinite, and the state.  An operation belongs to at
most one of them.  It leaves the others as they are
(`agreeOn_perform_of_other`), and what it answers and does on its own depends on
this channel and the declared outputs alone (`AgreeOn.perform`).

So operations may be interleaved in any way.  As long as the order within each
channel is the same, each of them has the same answer and the results are
written as the same texts (`results_depend_on_channels`).
-/

namespace RunExchange

set_option autoImplicit false

/-- Two tables in the order of their names are one if they hold the same values
under the same names, in whatever order these came. -/
theorem SortedTable.eq_of_find? {α : Type} {a b : SortedTable α}
    (same : ∀ name, a.find? name = b.find? name) : a = b := by
  have members : ∀ entry, entry ∈ a.entries ↔ entry ∈ b.entries := by
    rintro ⟨name, value⟩
    rw [← SortedTable.find?_eq_some_iff, ← SortedTable.find?_eq_some_iff, same]
  have alike : a.entries.Perm b.entries :=
    (List.perm_ext_iff_of_nodup a.nodup_keys.of_map b.nodup_keys.of_map).2 members
  apply SortedTable.ext
  refine alike.eq_of_pairwise ?_ a.ascending b.ascending
  intro first second _ _ before after
  exact absurd (before.trans after) (Text.not_byteLt_self _)

/-! ## Channels -/

/-- The parts of an exchange on which operations work independently. -/
inductive Channel
  /-- The values emitted on an output. -/
  | output (name : String)
  | closing
  | indefinite
  | state
deriving DecidableEq

namespace Operation

/-- The channel of an operation.  Readings and listings have none. -/
def channel? : Operation → Option Channel
  | .writeOutput name _ => some (.output name)
  | .closeOutput _ | .closeAllOutputs => some .closing
  | .leaveIndefinite _ => some .indefinite
  | .writeState _ _ | .readState _ _ | .readStateOr _ _ => some .state
  | _ => none

/-- The operations of a channel, in order. -/
def on (channel : Channel) (operations : List Operation) : List Operation :=
  operations.filter fun operation => operation.channel? = some channel

theorem on_cons (channel : Channel) (operation : Operation) (operations : List Operation) :
    on channel (operation :: operations) =
      if operation.channel? = some channel then operation :: on channel operations
      else on channel operations := by
  simp only [on, List.filter_cons, decide_eq_true_eq]

section Foreign

variable {operation : Operation}

theorem filterMap_emits_of_other {name : String}
    (other : operation.channel? ≠ some (.output name)) (declared : List String) :
    ((operation.emits declared).filterMap fun emission =>
      if emission.1 = name then some emission.2 else none) = [] := by
  cases operation with
  | writeOutput target value =>
      have apart : target ≠ name := fun same => other (same ▸ rfl)
      rw [emits]
      split
      · simp [apart]
      · rfl
  | _ => rfl

theorem closes_of_other (other : operation.channel? ≠ some .closing) (declared : List String) :
    operation.closes declared = [] := by
  cases operation with
  | closeOutput name => exact absurd rfl other
  | closeAllOutputs => exact absurd rfl other
  | _ => rfl

theorem leaves_of_other (other : operation.channel? ≠ some .indefinite)
    (declared : List String) : operation.leaves declared = [] := by
  cases operation with
  | leaveIndefinite name => exact absurd rfl other
  | _ => rfl

theorem stores_of_other (other : operation.channel? ≠ some .state) (state : Values) :
    operation.stores state = [] := by
  cases operation with
  | writeState name value => exact absurd rfl other
  | readState name default => exact absurd rfl other
  | readStateOr name default => exact absurd rfl other
  | _ => rfl

end Foreign

end Operation

namespace Exchange

/-- Two exchanges declare the same outputs and hold the same on a channel. -/
def AgreeOn (channel : Channel) (a b : Exchange) : Prop :=
  a.outputNames = b.outputNames ∧
    match channel with
    | .output name => a.outputs.find? name = b.outputs.find? name
    | .closing => a.closed = b.closed
    | .indefinite => a.indefinite = b.indefinite
    | .state => a.state = b.state

theorem AgreeOn.refl (channel : Channel) (exchange : Exchange) :
    AgreeOn channel exchange exchange := by
  cases channel <;> exact ⟨rfl, rfl⟩

theorem AgreeOn.symm {channel : Channel} {a b : Exchange} (agree : AgreeOn channel a b) :
    AgreeOn channel b a := by
  cases channel <;> exact ⟨agree.1.symm, agree.2.symm⟩

theorem AgreeOn.trans {channel : Channel} {a b c : Exchange} (first : AgreeOn channel a b)
    (second : AgreeOn channel b c) : AgreeOn channel a c := by
  cases channel <;> exact ⟨first.1.trans second.1, first.2.trans second.2⟩

/-- An operation leaves the other channels as they are. -/
theorem agreeOn_perform_of_other {channel : Channel} {operation : Operation}
    (other : operation.channel? ≠ some channel) (exchange : Exchange) :
    AgreeOn channel (perform operation exchange).state exchange := by
  rw [state_perform]
  refine ⟨rfl, ?_⟩
  cases channel with
  | output name =>
      show (emitAll _ exchange.outputs).find? name = _
      rw [find?_emitAll, Operation.filterMap_emits_of_other other]
      rfl
  | closing =>
      show markAll _ exchange.closed = _
      rw [Operation.closes_of_other other]
      rfl
  | indefinite =>
      show markAll _ exchange.indefinite = _
      rw [Operation.leaves_of_other other]
      rfl
  | state =>
      show storeAll _ exchange.state = _
      rw [Operation.stores_of_other other]
      rfl

/-! ## The answer of an operation -/

/-- A change of a declared output is accepted or refused by the declared outputs,
whatever it is. -/
theorem result_ifDeclared {a b : Exchange} (declared : a.outputNames = b.outputNames)
    (name : String) (changedA changedB : Exchange) :
    (change (a.ifDeclared name changedA) a).result =
      (change (b.ifDeclared name changedB) b).result := by
  rw [ifDeclared, ifDeclared, declared]
  split <;> rfl

theorem result_closeAllOutputs (exchange : Exchange) :
    (perform .closeAllOutputs exchange).result = .ok .done := by
  show (change exchange.closeAllOutputs exchange).result = _
  rw [closeAllOutputs, closeOutputs_eq exchange fun _ here => here]
  rfl

/-- An operation answers by its channel and the declared outputs alone. -/
theorem AgreeOn.result {channel : Channel} {operation : Operation} {a b : Exchange}
    (agree : AgreeOn channel a b) (own : operation.channel? = some channel) :
    (perform operation a).result = (perform operation b).result := by
  have declared : a.outputNames = b.outputNames := agree.1
  cases operation with
  | writeOutput name value => exact result_ifDeclared declared name _ _
  | closeOutput name => exact result_ifDeclared declared name _ _
  | leaveIndefinite name => exact result_ifDeclared declared name _ _
  | closeAllOutputs => rw [result_closeAllOutputs, result_closeAllOutputs]
  | writeState name value => rfl
  | readState name default =>
      obtain rfl : Channel.state = channel := Option.some.inj own
      have state : a.state = b.state := agree.2
      rw [(perform_consult _ a).2 _ rfl, (perform_consult _ b).2 _ rfl, state]
  | readStateOr name default =>
      obtain rfl : Channel.state = channel := Option.some.inj own
      have state : a.state = b.state := agree.2
      rw [(perform_consult _ a).2 _ rfl, (perform_consult _ b).2 _ rfl, state]
  | _ => cases own

/-- It changes its channel by this channel and the declared outputs alone. -/
theorem AgreeOn.perform {channel : Channel} {a b : Exchange} (agree : AgreeOn channel a b)
    (operation : Operation) :
    AgreeOn channel (Exchange.perform operation a).state (Exchange.perform operation b).state := by
  rw [state_perform, state_perform]
  refine ⟨agree.1, ?_⟩
  cases channel with
  | output name =>
      have values : a.outputs.find? name = b.outputs.find? name := agree.2
      show (emitAll _ a.outputs).find? name = (emitAll _ b.outputs).find? name
      rw [find?_emitAll, find?_emitAll, agree.1, values]
  | closing =>
      have closed : a.closed = b.closed := agree.2
      show markAll _ a.closed = markAll _ b.closed
      rw [agree.1, closed]
  | indefinite =>
      have indefinite : a.indefinite = b.indefinite := agree.2
      show markAll _ a.indefinite = markAll _ b.indefinite
      rw [agree.1, indefinite]
  | state =>
      have state : a.state = b.state := agree.2
      show storeAll _ a.state = storeAll _ b.state
      rw [state]

/-- No operation changes what the exchange was loaded with. -/
theorem performAll_eq (operations : List Operation) (exchange : Exchange) :
    exchange.performAll operations =
      { exchange with
        outputs := (exchange.performAll operations).outputs
        closed := (exchange.performAll operations).closed
        indefinite := (exchange.performAll operations).indefinite
        state := (exchange.performAll operations).state } := by
  induction operations generalizing exchange with
  | nil => rfl
  | cons operation operations ih =>
      rw [performAll_cons, ih, state_perform]

end Exchange

/-! ## Runs -/

namespace Script

/-- The calls on a channel, in order. -/
def callsOn (channel : Channel) (operations : List Operation) (exchange : Exchange) :
    List (Operation × Except ExchangeError Answer) :=
  (calls operations exchange).filter fun call => call.1.channel? = some channel

theorem callsOn_cons (channel : Channel) (operation : Operation) (operations : List Operation)
    (exchange : Exchange) :
    callsOn channel (operation :: operations) exchange =
      if operation.channel? = some channel then
        (operation, (Exchange.perform operation exchange).result) ::
          callsOn channel operations (Exchange.perform operation exchange).state
      else callsOn channel operations (Exchange.perform operation exchange).state := by
  rw [callsOn, calls_cons]
  simp only [List.filter_cons, decide_eq_true_eq]
  rfl

/-- **The calls on a channel go as if there were no others.** -/
theorem callsOn_eq_calls_on {channel : Channel} (operations : List Operation) {a b : Exchange}
    (agree : a.AgreeOn channel b) :
    callsOn channel operations a = calls (Operation.on channel operations) b ∧
      (a.performAll operations).AgreeOn channel
        (b.performAll (Operation.on channel operations)) := by
  induction operations generalizing a b with
  | nil => exact ⟨rfl, agree⟩
  | cons operation operations ih =>
      by_cases own : operation.channel? = some channel
      · obtain ⟨later, left⟩ := ih (agree.perform operation)
        rw [callsOn_cons, if_pos own, Operation.on_cons, if_pos own, calls_cons, later,
          agree.result own]
        exact ⟨rfl, left⟩
      · rw [callsOn_cons, if_neg own, Operation.on_cons, if_neg own]
        exact ih ((Exchange.agreeOn_perform_of_other own a).trans agree)

end Script

section Matched

variable {left right : List Operation}
  (matched : ∀ channel, Operation.on channel left = Operation.on channel right)
include matched

theorem callsOn_eq_of_matched (channel : Channel) (exchange : Exchange) :
    Script.callsOn channel left exchange = Script.callsOn channel right exchange := by
  have agree := Exchange.AgreeOn.refl channel exchange
  rw [(Script.callsOn_eq_calls_on left agree).1, (Script.callsOn_eq_calls_on right agree).1,
    matched]

theorem agreeOn_of_matched (channel : Channel) (exchange : Exchange) :
    (exchange.performAll left).AgreeOn channel (exchange.performAll right) := by
  have agree := Exchange.AgreeOn.refl channel exchange
  have alone := (Script.callsOn_eq_calls_on right agree).2
  rw [← matched] at alone
  exact (Script.callsOn_eq_calls_on left agree).2.trans alone.symm

/-- Matching operations leave the same exchange. -/
theorem performAll_eq_of_matched (exchange : Exchange) :
    exchange.performAll left = exchange.performAll right := by
  have agree := fun channel => agreeOn_of_matched matched channel exchange
  have outputs : (exchange.performAll left).outputs = (exchange.performAll right).outputs :=
    SortedTable.eq_of_find? fun name => (agree (.output name)).2
  have closed : (exchange.performAll left).closed = (exchange.performAll right).closed :=
    (agree .closing).2
  have indefinite :
      (exchange.performAll left).indefinite = (exchange.performAll right).indefinite :=
    (agree .indefinite).2
  have state : (exchange.performAll left).state = (exchange.performAll right).state :=
    (agree .state).2
  rw [Exchange.performAll_eq left, Exchange.performAll_eq right, outputs, closed, indefinite,
    state]

/-- **Answers and results depend on the order within each channel alone.**  Each
call on a channel is answered alike, finalizing does the same with every store,
and a store in memory then holds the same four texts, the emitted outputs being
an object whose names stand in the order of their bytes. -/
theorem results_depend_on_channels (exchange : Exchange) :
    let first := ((Script.caught left).run exchange).exchange
    let second := ((Script.caught right).run exchange).exchange
    (∀ channel, Script.callsOn channel left exchange = Script.callsOn channel right exchange) ∧
      (∀ (σ : Type) [Store σ] (store : σ), first.finalize store = second.finalize store) ∧
      ∀ store : MemoryStore, ∀ resource ∈ Resource.results,
        ∃ text, Store.read (first.finalize store).state resource = .ok text ∧
          Store.read (second.finalize store).state resource = .ok text ∧
          (resource = .outputValues → ∃ entries, text = (Json.object entries).compact ∧
            entries.Pairwise fun a b => Text.ByteLt a.1 b.1) := by
  intro first second
  have same : first = second := by
    rw [show first = exchange.performAll left from (Script.run_caught left exchange).2.2,
      show second = exchange.performAll right from (Script.run_caught right exchange).2.2]
    exact performAll_eq_of_matched matched exchange
  refine ⟨fun channel => callsOn_eq_of_matched matched channel exchange, ?_, ?_⟩
  · intro σ _ store
    rw [same]
  · intro store resource result
    obtain ⟨-, read⟩ := MemoryStore.keeping.finalize trivial (MemoryStore.finalize_ok first store)
    obtain ⟨text, written⟩ := first.exists_text? result
    refine ⟨text, ?_, ?_, ?_⟩
    · rw [read, overlay_of_text written]
    · rw [← same, read, overlay_of_text written]
    · rintro rfl
      cases written
      refine ⟨_, rfl, ?_⟩
      exact List.pairwise_map.2 first.outputs.ascending

end Matched

/-- Two values are emitted in either order, around the end of all outputs. -/
theorem crossed_writes_agree :
    let exchange : Exchange := { Exchange.empty with outputNames := ["a", "b"] }
    let left : List Operation := [.writeOutput "b" .null, .closeAllOutputs, .writeOutput "a" .null]
    let right : List Operation :=
      [.writeOutput "a" .null, .inputNames, .writeOutput "b" .null, .closeAllOutputs]
    (∀ channel, Operation.on channel left = Operation.on channel right) ∧
      (∀ channel, Script.callsOn channel left exchange = Script.callsOn channel right exchange) ∧
      ((Script.caught left).run exchange).exchange.finalize MemoryStore.empty =
        ((Script.caught right).run exchange).exchange.finalize MemoryStore.empty := by
  intro exchange left right
  have matched : ∀ channel, Operation.on channel left = Operation.on channel right := by
    intro channel
    cases channel with
    | output name =>
        by_cases first : name = "a"
        · subst first
          rfl
        · by_cases second : name = "b"
          · subst second
            rfl
          · simp [left, right, Operation.on, Operation.channel?, Ne.symm first, Ne.symm second]
    | _ => rfl
  obtain ⟨calls, finalized, -⟩ := results_depend_on_channels matched exchange
  exact ⟨matched, calls, finalized MemoryStore MemoryStore.empty⟩

end RunExchange
