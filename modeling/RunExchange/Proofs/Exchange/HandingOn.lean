import Mathlib.Tactic
import RunExchange.Proofs.Exchange.Provenance
import RunExchange.Proofs.Exchange.Startup
import RunExchange.Proofs.Exchange.Variables
/-!
# Proofs.Exchange.HandingOn -- work that passes on what it was given

The reader of documents admits 127 containers around a value and the writer any
number.  A value that was read as an input or a state variable stood inside one
object, so it has at most 126 of its own.  That is room enough for the state, where
it stands inside one object again.  An emitted value stands in a list in an object,
and there 125 is the most that is read back.

So if work writes only what its exchange gave it, the host can read the state unless
that holds a default which was too deep to begin with, and it can read the outputs
exactly if no emitted value has 126 containers (`passed_on_values_are_collected`).
Where there is no room, the run succeeds all the same and the host finds the result
malformed.
-/

namespace RunExchange

set_option autoImplicit false

open Json (Fits)

namespace Exchange

/-! ## Values that were loaded -/

theorem handedOn_of_supplies {σ : Type} [Store σ] {store : σ} {resource : Resource}
    {values : Values} (supplied : Store.Supplies store resource ∅ values) : HandedOn values := by
  rw [Store.Supplies] at supplied
  split at supplied
  · obtain ⟨text, -, decoded⟩ := supplied
    exact handedOn_of_decode decoded
  · rw [supplied]
    exact handedOn_noValues

/-- Whatever the store holds, the values that a worker starts with fit into one
object. -/
theorem holds_load {σ : Type} [Store σ] (store : σ) :
    (load store).Holds (Fits Json.nestingLimit 1) where
  inputs := (handedOn_values_iff _).1 (handedOn_of_supplies (startsFrom_load store).inputs)
  outputs := nofun
  state := (handedOn_values_iff _).1 (handedOn_of_supplies (startsFrom_load store).state)

end Exchange

/-! ## Results -/

/-- What a store in memory reads as after a run that succeeded. -/
theorem MemoryStore.read_runWorker {α : Type} {work : Action Exchange ExchangeError α}
    {store : MemoryStore} {value : α} (finished : (runWorker work store).result = .ok value) :
    Store.read (runWorker work store).state =
      overlay (work (Exchange.load store)).state.text? (Store.read store) := by
  cases worked : (work (Exchange.load store)).result with
  | error error =>
      rw [runWorker_eq_of_error worked] at finished
      cases finished
  | ok result =>
      rw [(runWorker_of_ok worked).2]
      exact (keeping.finalize trivial (finalize_ok _ store)).2

namespace Program

section Limits

variable {α : Type} (program : Program α) (exchange : Exchange)

/-- No value that the program writes to a declared output has more than 125
containers. -/
def OutputsFit : Prop :=
  ∀ name ∈ exchange.outputNames, ∀ value,
    .writeOutput name value ∈ program.operations exchange → value.depth ≤ 125

/-- No default of the program that is in the state in the end has more than 126
containers. -/
def DefaultsFit : Prop :=
  ∀ name value, (program.work exchange).state.state.find? name = some value →
    program.GetsBack exchange value → value.depth ≤ 126

/-- The value leaves room for an object around it, or is a default of the program. -/
def Admits (value : Json) : Prop :=
  value.WellFormed ∧ (value.depth ≤ 126 ∨ program.GetsBack exchange value)

end Limits

section Passing

variable {α : Type} {program : Program α} {store : MemoryStore}
  (passes : program.PassesOn (Exchange.load store))
  (proper : ∀ default, program.GetsBack (Exchange.load store) default → default.WellFormed)
include passes proper

/-- What is in the exchange in the end was loaded, or is a default that came back. -/
theorem holds_work : (program.work (Exchange.load store)).state.Holds
    (program.Admits (Exchange.load store)) := by
  have loaded : (Exchange.load store).Holds (program.Admits (Exchange.load store)) := by
    refine (Exchange.holds_load store).mono ?_
    intro value fits
    have room := fits.room
    exact ⟨fits.2, .inl (by omega)⟩
  refine loaded.work (fun _ => False.elim) passes ?_
  intro value back
  exact ⟨proper value back, .inr back⟩

theorem handedOn_outputs_iff :
    HandedOn (program.work (Exchange.load store)).state.outputs ↔
      program.OutputsFit (Exchange.load store) := by
  have held := holds_work passes proper
  have fresh := Exchange.fresh_load store
  rw [state_work] at held ⊢
  rw [handedOn_emissions_iff]
  constructor
  · intro fits name known value there
    obtain ⟨values, found, here⟩ := (fresh.exists_mem_outputs_iff _).2 ⟨known, there⟩
    have room := (fits name values found value here).room
    omega
  · intro low name values found value here
    obtain ⟨known, there⟩ := (fresh.exists_mem_outputs_iff _).1 ⟨values, found, here⟩
    have wellFormed := (held.outputs name values found value here).1
    exact Json.fits_of_depth_le (low name known value there) wellFormed (by decide)

theorem handedOn_state_iff :
    HandedOn (program.work (Exchange.load store)).state.state ↔
      program.DefaultsFit (Exchange.load store) := by
  rw [handedOn_values_iff]
  constructor
  · intro fits name value found back
    have room := (fits name value found).room
    omega
  · intro shallow name value found
    obtain ⟨wellFormed, low | back⟩ := (holds_work passes proper).state name value found
    · exact Json.fits_of_depth_le low wellFormed (by decide)
    · exact Json.fits_of_depth_le (shallow name value found back) wellFormed (by decide)

variable {value : α} (finished : (runWorker program.work store).result = .ok value)
include finished

theorem collect_of_fits (outputs : program.OutputsFit (Exchange.load store))
    (state : program.DefaultsFit (Exchange.load store)) :
    Outcome.collect (runWorker program.work store).state =
      .ok (program.work (Exchange.load store)).state.outcome :=
  collect_finalized ((handedOn_outputs_iff passes proper).2 outputs)
    ((handedOn_state_iff passes proper).2 state) (MemoryStore.read_runWorker finished)

theorem collect_of_deep_output (deep : ¬ program.OutputsFit (Exchange.load store)) :
    Outcome.collect (runWorker program.work store).state =
      .error (.invalid .outputValues .malformed) := by
  rw [← handedOn_outputs_iff passes proper] at deep
  refine collect_deep_outputs (wellFormed_emissions ?_) deep (MemoryStore.read_runWorker finished)
  intro name values found value here
  exact ((holds_work passes proper).outputs name values found value here).1

theorem collect_of_deep_default (outputs : program.OutputsFit (Exchange.load store))
    (deep : ¬ program.DefaultsFit (Exchange.load store)) :
    Outcome.collect (runWorker program.work store).state =
      .error (.invalid .stateOutput .malformed) := by
  rw [← handedOn_outputs_iff passes proper] at outputs
  rw [← handedOn_state_iff passes proper] at deep
  refine collect_deep_state outputs (wellFormed_values ?_) deep
    (MemoryStore.read_runWorker finished)
  intro name value found
  exact ((holds_work passes proper).state name value found).1

end Passing

end Program

/-- A value inside a number of lists. -/
def Json.nested : Nat → Json
  | 0 => .null
  | count + 1 => .array [nested count]

theorem Json.depth_nested (count : Nat) : (nested count).depth = count := by
  induction count with
  | zero => rfl
  | succ count ih =>
      simp only [nested, depth, depthItems, ih]
      omega

theorem Json.wellFormed_nested (count : Nat) : (nested count).WellFormed := by
  induction count with
  | zero => trivial
  | succ count ih => exact ⟨ih, trivial⟩

/-- A request for a run with an input of that many lists, an input that is not
connected and an output. -/
def Request.nesting (count : Nat) : Request :=
  { standard with
    inputs := (∅ : Values).insert "deep" (Json.nested count)
    requiredIfConnected := ["open"]
    outputNames := ["out"] }

theorem Request.handedOn_nesting {count : Nat} (room : count ≤ 126) :
    (nesting count).HandedOn where
  inputs := by
    rw [handedOn_values_iff]
    intro name value found
    rw [nesting, Table.find?_insert] at found
    split at found
    · cases found
      rw [← Json.depth_nested count] at room
      exact Json.fits_of_depth_le room (Json.wellFormed_nested count) (by decide)
    · cases found
  requiredIfConnected := handedOn_names _
  outputNames := handedOn_names _
  state := handedOn_noValues
  runNumber := handedOn_runNumber _

/-- A run in memory succeeds if its work does. -/
theorem MemoryStore.runWorker_ok {α : Type} {work : Action Exchange ExchangeError α}
    {store : MemoryStore} {value : α} (worked : (work (Exchange.load store)).result = .ok value) :
    (runWorker work store).result = .ok value := by
  rw [(runWorker_of_ok worked).1, finalize_ok]
  rfl

/-- A store in which such a request was staged. -/
def MemoryStore.nesting (count : Nat) : MemoryStore :=
  ((Request.nesting count).stage empty).state

theorem MemoryStore.load_nesting {count : Nat} (room : count ≤ 126) :
    Exchange.load (nesting count) = (Request.nesting count).opened :=
  load_staged (Request.handedOn_nesting room) (keeping.stage trivial (stage_ok _ empty)).2

namespace Program

/-- Read a value and write it. -/
def relay (read : Operation) (write : Json → Operation) : Program Unit :=
  .call read fun answer =>
    match answer with
    | .ok (.value value) => .call (write value) fun last => .finish (last.map fun _ => ())
    | _ => .finish (.ok ())

/-- Pass an input on to an output. -/
def emitting : Program Unit := relay (.readInput "deep" none) (.writeOutput "out")

/-- Pass the default of an input on to a state variable. -/
def storing (default : Json) : Program Unit :=
  relay (.readInput "open" (some default)) (.writeState "open")

/-- A relay that can read and write makes two calls, passes on what it read, and gets
back nothing but the default for what it read. -/
theorem relay_spec {read : Operation} {write : Json → Operation} {exchange : Exchange}
    {value : Json} (reads : Exchange.perform read exchange = ⟨.ok (.value value), exchange, []⟩)
    (writes : (Exchange.perform (write value) exchange).result = .ok .done)
    (only : read.written? exchange.outputNames = none)
    (same : ∀ other, (write value).written? exchange.outputNames = some other → value = other) :
    (relay read write).operations exchange = [read, write value] ∧
      (relay read write).PassesOn exchange ∧
      ((relay read write).work exchange).result = .ok () ∧
      ∀ other, (relay read write).GetsBack exchange other ↔
        read.default? = some other ∧ value = other := by
  have made : (relay read write).calls exchange =
      [(read, .ok (.value value)), (write value, .ok .done)] := by
    simp only [relay, calls, reads, writes]
  refine ⟨by rw [operations, made]; rfl, ?_, ?_, ?_⟩
  · rw [PassesOn, made]
    refine ⟨?_, ?_, trivial⟩
    · intro other written
      rw [only] at written
      cases written
    · intro other written
      exact .inr (same other written)
  · simp only [relay, work, reads, writes, Except.map, Action.lift, Action.pure]
  · intro other
    simp [GetsBack, made, Answer.Gives]

/-- What a program leaves of a result is the text of it after the operations. -/
theorem read_of_finished {α : Type} {program : Program α} {store : MemoryStore} {value : α}
    (finished : (runWorker program.work store).result = .ok value)
    {resource : Resource} {text : String}
    (written : ((Exchange.load store).performAll
      (program.operations (Exchange.load store))).text? resource = some text) :
    Store.read (runWorker program.work store).state resource = .ok text := by
  rw [MemoryStore.read_runWorker finished, state_work]
  exact overlay_of_text written

/-- The outputs that the run leaves: the value in a list, and that in an object. -/
def emitted (count : Nat) : Json := .object [("out", .array [Json.nested count])]

theorem emitting_spec {count : Nat} (room : count ≤ 126) :
    let loaded := Exchange.load (MemoryStore.nesting count)
    loaded.outputNames = ["out"] ∧
      emitting.operations loaded =
        [.readInput "deep" none, .writeOutput "out" (Json.nested count)] ∧
      emitting.PassesOn loaded ∧
      (runWorker emitting.work (MemoryStore.nesting count)).result = .ok () ∧
      Store.read (runWorker emitting.work (MemoryStore.nesting count)).state .outputValues =
        .ok (emitted count).compact ∧
      ∀ value, ¬ emitting.GetsBack loaded value := by
  intro loaded
  have opened : loaded = (Request.nesting count).opened := MemoryStore.load_nesting room
  have reads : Exchange.perform (.readInput "deep" none) loaded =
      ⟨.ok (.value (Json.nested count)), loaded, []⟩ := by
    have found : (Request.nesting count).opened.inputs.find? "deep" = some (Json.nested count) :=
      (Table.find?_insert ..).trans (if_pos rfl)
    have apart : "deep" ∉ (Request.nesting count).opened.requiredIfConnected := by
      simp [Request.opened, Request.nesting]
    simp only [opened, Exchange.perform, Exchange.readInput, if_neg apart, found]
    rfl
  have writes : (Exchange.perform (.writeOutput "out" (Json.nested count)) loaded).result =
      .ok .done := by
    rw [opened]
    rfl
  have known : "out" ∈ loaded.outputNames := by
    rw [opened]
    exact List.mem_singleton_self _
  have same : ∀ other, (Operation.writeOutput "out" (Json.nested count)).written?
      loaded.outputNames = some other → Json.nested count = other := by
    intro other written
    rw [Operation.written?, if_pos known] at written
    exact Option.some.inj written
  obtain ⟨made, passes, worked, back⟩ := relay_spec reads writes rfl same
  have finished := MemoryStore.runWorker_ok worked
  refine ⟨by rw [opened]; rfl, made, passes, finished, read_of_finished finished ?_, ?_⟩
  · rw [made, MemoryStore.load_nesting room]
    rfl
  · intro value own
    cases ((back value).1 own).1

/-- The state that the run leaves: the default in an object. -/
def stored (depth : Nat) : Json := .object [("open", Json.nested depth)]

theorem storing_spec (depth : Nat) :
    let default := Json.nested (depth + 1)
    let loaded := Exchange.load (MemoryStore.nesting 0)
    (storing default).operations loaded =
        [.readInput "open" (some default), .writeState "open" default] ∧
      (storing default).PassesOn loaded ∧
      (runWorker (storing default).work (MemoryStore.nesting 0)).result = .ok () ∧
      Store.read (runWorker (storing default).work (MemoryStore.nesting 0)).state .stateOutput =
        .ok (stored (depth + 1)).compact ∧
      ∀ value, (storing default).GetsBack loaded value ↔ default = value := by
  intro default loaded
  have opened : loaded = (Request.nesting 0).opened := MemoryStore.load_nesting (by decide)
  have reads : Exchange.perform (.readInput "open" (some default)) loaded =
      ⟨.ok (.value default), loaded, []⟩ := by
    rw [opened]
    rfl
  have writes : (Exchange.perform (.writeState "open" default) loaded).result = .ok .done := by
    rw [opened]
    rfl
  obtain ⟨made, passes, worked, back⟩ := relay_spec reads writes rfl fun other => Option.some.inj
  have finished := MemoryStore.runWorker_ok worked
  refine ⟨made, passes, finished, read_of_finished finished ?_, fun value => ?_⟩
  · rw [made, MemoryStore.load_nesting (by decide)]
    rfl
  · exact (back value).trans (and_iff_right_of_imp (congrArg some))

end Program

end RunExchange
