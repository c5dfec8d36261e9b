import Mathlib.Tactic
import RunExchange.Exchange.Operation
import RunExchange.Proofs.Document.Received
/-!
# Proofs.Exchange.Effects -- what operations leave in an exchange

The whole effect of an operation is four lists: the values that it emits, the
outputs that it closes, the outputs that it leaves indefinite and the variables
that it stores (`state_perform`).  The first three depend on the declared outputs
alone, which no operation changes.  So after any operations, their failures
ignored, the exchange holds the lists of all of them one after the other
(`outputs_performAll`, `closed_performAll`, `indefinite_performAll`).

Operations are deliverable when the values that they bring nest so little that
the results which contain them can be read back (`Deliverable.performAll`).
-/

namespace RunExchange

set_option autoImplicit false

open Json (Fits)

/-! ## The effect of an operation -/

namespace Operation

/-- The values that the operation emits, under the names of their outputs. -/
def emits (declared : List String) : Operation → List (String × Json)
  | .writeOutput name value => if name ∈ declared then [(name, value)] else []
  | _ => []

/-- The outputs that the operation closes. -/
def closes (declared : List String) : Operation → List String
  | .closeOutput name => if name ∈ declared then [name] else []
  | .closeAllOutputs => declared
  | _ => []

/-- The outputs that the operation leaves indefinite. -/
def leaves (declared : List String) : Operation → List String
  | .leaveIndefinite name => if name ∈ declared then [name] else []
  | _ => []

/-- A default that becomes the value of a variable. -/
def storesDefault (state : Values) (name : String) (default : Option Json) :
    List (String × Json) :=
  match state.find? name, Exchange.supplied default with
  | none, some value => [(name, value)]
  | _, _ => []

/-- The state variables that the operation stores. -/
def stores (state : Values) : Operation → List (String × Json)
  | .writeState name value => [(name, value)]
  | .readState name default => storesDefault state name default
  | .readStateOr name default => storesDefault state name (some default)
  | _ => []

/-- The values that operations emit on an output, in order. -/
def emitted (declared : List String) (name : String) (operations : List Operation) : List Json :=
  (operations.flatMap (emits declared)).filterMap fun emission =>
    if emission.1 = name then some emission.2 else none

/-- The values on an output are those written to it, if it was declared. -/
theorem mem_emitted_iff {declared : List String} {name : String} {operations : List Operation}
    {value : Json} :
    value ∈ emitted declared name operations ↔
      name ∈ declared ∧ .writeOutput name value ∈ operations := by
  rw [emitted, List.mem_filterMap]
  constructor
  · rintro ⟨⟨output, other⟩, here, kept⟩
    obtain ⟨operation, there, emission⟩ := List.mem_flatMap.1 here
    cases operation with
    | writeOutput target emitted =>
        rw [emits] at emission
        split at emission
        · next known =>
            cases List.mem_singleton.1 emission
            simp only [Option.ite_none_right_eq_some, Option.some.injEq] at kept
            obtain ⟨rfl, rfl⟩ := kept
            exact ⟨known, there⟩
        · cases emission
    | _ => cases emission
  · rintro ⟨known, there⟩
    refine ⟨(name, value), List.mem_flatMap.2 ⟨_, there, ?_⟩, if_pos rfl⟩
    rw [emits, if_pos known]
    exact List.mem_singleton_self _

/-- What the operation brings into the exchange can be handed on. -/
def Deliverable : Operation → Prop
  | .writeOutput _ value => value.depth ≤ 125 ∧ value.WellFormed
  | .writeState _ value | .readState _ (some value) | .readStateOr _ value =>
      value.depth ≤ 126 ∧ value.WellFormed
  | _ => True

theorem Deliverable.fits_emits {operation : Operation} (deliverable : operation.Deliverable)
    (declared : List String) :
    ∀ emission ∈ operation.emits declared, Fits Json.nestingLimit 2 emission.2 := by
  intro emission here
  cases operation with
  | writeOutput name value =>
      rw [emits] at here
      split at here
      · cases List.mem_singleton.1 here
        exact Json.fits_of_depth_le deliverable.1 deliverable.2 (by decide)
      · cases here
  | _ => cases here

theorem fits_storesDefault {state : Values} {name : String} {default : Option Json}
    (shallow : ∀ value ∈ default, value.depth ≤ 126 ∧ value.WellFormed) :
    ∀ stored ∈ storesDefault state name default, Fits Json.nestingLimit 1 stored.2 := by
  intro stored here
  rw [storesDefault] at here
  split at here
  · next value _ given =>
      cases List.mem_singleton.1 here
      obtain ⟨low, wellFormed⟩ := shallow value (Option.filter_eq_some_iff.1 given).1
      exact Json.fits_of_depth_le low wellFormed (by decide)
  · cases here

theorem Deliverable.fits_stores {operation : Operation} (deliverable : operation.Deliverable)
    (state : Values) :
    ∀ stored ∈ operation.stores state, Fits Json.nestingLimit 1 stored.2 := by
  intro stored here
  cases operation with
  | writeState name value =>
      cases List.mem_singleton.1 here
      exact Json.fits_of_depth_le deliverable.1 deliverable.2 (by decide)
  | readState name default =>
      refine fits_storesDefault ?_ stored here
      rintro value rfl
      exact deliverable
  | readStateOr name default =>
      refine fits_storesDefault ?_ stored here
      rintro value ⟨⟩
      exact deliverable
  | _ => cases here

end Operation

namespace Exchange

/-! ## Marked names -/

/-- Mark names one after the other. -/
def markAll (names marked : List String) : List String :=
  names.foldl (fun marked name => mark name marked) marked

theorem markAll_append (names more marked : List String) :
    markAll (names ++ more) marked = markAll more (markAll names marked) :=
  List.foldl_append

theorem mark_eraseDups (name : String) (names : List String) :
    mark name names.eraseDups = (names ++ [name]).eraseDups := by
  rw [mark, List.eraseDups_append]
  by_cases here : name ∈ names
  · simp [here, List.removeAll]
  · simp [here, List.removeAll, List.eraseDups_cons]

/-- Marked names stand in the order in which they first came. -/
theorem markAll_eraseDups (names earlier : List String) :
    markAll names earlier.eraseDups = (earlier ++ names).eraseDups := by
  induction names generalizing earlier with
  | nil => rw [List.append_nil]; rfl
  | cons name names ih =>
      rw [markAll, List.foldl_cons, mark_eraseDups, ← markAll, ih, List.append_assoc]
      rfl

theorem nodup_eraseDups (names : List String) : names.eraseDups.Nodup := by
  induction names using List.reverseRecOn with
  | nil => exact List.nodup_nil
  | append_singleton names name ih =>
      rw [← mark_eraseDups, mark]
      split
      · exact ih
      · next absent =>
          refine List.nodup_append.2 ⟨ih, List.nodup_singleton name, ?_⟩
          rintro a here b there rfl
          exact absent (List.mem_singleton.1 there ▸ here)

theorem eraseDups_of_nodup {names : List String} (distinct : names.Nodup) :
    names.eraseDups = names := by
  induction names using List.reverseRecOn with
  | nil => rfl
  | append_singleton names name ih =>
      obtain ⟨earlier, -, apart⟩ := List.nodup_append.1 distinct
      rw [← mark_eraseDups, ih earlier, mark, if_neg]
      exact fun here => apart name here name (List.mem_singleton_self name) rfl

/-- Marking different names puts the new ones last, each where it first came. -/
theorem markAll_of_nodup {marked : List String} (distinct : marked.Nodup) (names : List String) :
    markAll names marked = marked ++ (names.filter (· ∉ marked)).eraseDups := by
  have kept := eraseDups_of_nodup distinct
  have new : names.removeAll marked = names.filter (· ∉ marked) := by
    simp [List.removeAll]
  rw [← new]
  calc markAll names marked = markAll names marked.eraseDups := by rw [kept]
    _ = (marked ++ names).eraseDups := markAll_eraseDups names marked
    _ = marked ++ (names.removeAll marked).eraseDups := by rw [List.eraseDups_append, kept]

/-! ## One operation -/

theorem closeOutputs_eq {names : List String} (exchange : Exchange)
    (declared : ∀ name ∈ names, name ∈ exchange.outputNames) :
    closeOutputs names exchange =
      .ok { exchange with closed := markAll names exchange.closed } := by
  induction names generalizing exchange with
  | nil => rfl
  | cons name names ih =>
      have here : name ∈ exchange.outputNames := declared name List.mem_cons_self
      rw [closeOutputs, closeOutput, ifDeclared, if_pos here]
      exact ih _ fun other there => declared other (List.mem_cons_of_mem _ there)

/-- Emit values one after the other. -/
def emitAll (emissions : List (String × Json)) (outputs : Emissions) : Emissions :=
  emissions.foldl
    (fun outputs emission =>
      outputs.alter emission.1 fun values => values.getD [] ++ [emission.2])
    outputs

theorem emitAll_append (emissions more : List (String × Json)) (outputs : Emissions) :
    emitAll (emissions ++ more) outputs = emitAll more (emitAll emissions outputs) :=
  List.foldl_append

/-- Store variables one after the other. -/
def storeAll (additions : List (String × Json)) (state : Values) : Values :=
  additions.foldl (fun state stored => state.insert stored.1 stored.2) state

theorem readState_snd (exchange : Exchange) (name : String) (default : Option Json) :
    (exchange.readState name default).2 =
      { exchange with
        state :=
          storeAll (Operation.storesDefault exchange.state name default) exchange.state } := by
  rw [readState, Operation.storesDefault]
  cases exchange.state.find? name with
  | some value => rfl
  | none =>
      cases supplied default with
      | none => rfl
      | some value => rfl

theorem state_change_ifDeclared (exchange : Exchange) (name : String) (changed : Exchange) :
    (change (exchange.ifDeclared name changed) exchange).state =
      if name ∈ exchange.outputNames then changed else exchange := by
  rw [ifDeclared]
  split <;> rfl

/-- **The effect of an operation**, whether it fails or not. -/
theorem state_perform (operation : Operation) (exchange : Exchange) :
    (perform operation exchange).state =
      { exchange with
        outputs := emitAll (operation.emits exchange.outputNames) exchange.outputs
        closed := markAll (operation.closes exchange.outputNames) exchange.closed
        indefinite := markAll (operation.leaves exchange.outputNames) exchange.indefinite
        state := storeAll (operation.stores exchange.state) exchange.state } := by
  cases operation with
  | writeOutput name value =>
      refine (state_change_ifDeclared ..).trans ?_
      rw [Operation.emits]
      split <;> rfl
  | closeOutput name =>
      refine (state_change_ifDeclared ..).trans ?_
      rw [Operation.closes]
      split <;> rfl
  | leaveIndefinite name =>
      refine (state_change_ifDeclared ..).trans ?_
      rw [Operation.leaves]
      split <;> rfl
  | closeAllOutputs =>
      show (change exchange.closeAllOutputs exchange).state = _
      rw [closeAllOutputs, closeOutputs_eq exchange fun _ here => here]
      rfl
  | readState name default => exact readState_snd exchange name default
  | readStateOr name default => exact readState_snd exchange name (some default)
  | readInput name default =>
      show (answer ((exchange.readInput name default).map .value) exchange).state = _
      cases exchange.readInput name default <;> rfl
  | requireState name =>
      show (answer ((exchange.requireState name).map .value) exchange).state = _
      cases exchange.requireState name <;> rfl
  | _ => rfl

/-! ## All operations -/

theorem performAll_cons (operation : Operation) (operations : List Operation)
    (exchange : Exchange) :
    performAll (operation :: operations) exchange =
      performAll operations (perform operation exchange).state :=
  rfl

theorem outputs_performAll (operations : List Operation) (exchange : Exchange) :
    (performAll operations exchange).outputs =
      emitAll (operations.flatMap (Operation.emits exchange.outputNames)) exchange.outputs := by
  induction operations generalizing exchange with
  | nil => rfl
  | cons operation operations ih =>
      rw [performAll_cons, ih, state_perform, List.flatMap_cons, emitAll_append]

theorem closed_performAll (operations : List Operation) (exchange : Exchange) :
    (performAll operations exchange).closed =
      markAll (operations.flatMap (Operation.closes exchange.outputNames)) exchange.closed := by
  induction operations generalizing exchange with
  | nil => rfl
  | cons operation operations ih =>
      rw [performAll_cons, ih, state_perform, List.flatMap_cons, markAll_append]

theorem indefinite_performAll (operations : List Operation) (exchange : Exchange) :
    (performAll operations exchange).indefinite =
      markAll (operations.flatMap (Operation.leaves exchange.outputNames)) exchange.indefinite := by
  induction operations generalizing exchange with
  | nil => rfl
  | cons operation operations ih =>
      rw [performAll_cons, ih, state_perform, List.flatMap_cons, markAll_append]

/-- An output has a list once something was emitted on it. -/
theorem find?_emitAll (emissions : List (String × Json)) (outputs : Emissions) (name : String) :
    (emitAll emissions outputs).find? name =
      let gathered := emissions.filterMap fun emission =>
        if emission.1 = name then some emission.2 else none
      if gathered = [] then outputs.find? name
      else some ((outputs.find? name).getD [] ++ gathered) := by
  induction emissions generalizing outputs with
  | nil => rfl
  | cons emission emissions ih =>
      rw [emitAll, List.foldl_cons, ← emitAll, ih, SortedTable.find?_alter, List.filterMap_cons]
      by_cases same : emission.1 = name
      · simp only [if_pos same, if_pos same.symm]
        generalize List.filterMap _ emissions = later
        cases later <;> simp [same]
      · rw [if_neg same, if_neg (Ne.symm same)]

/-! ## Results that can be read back -/

/-- The outputs and the state of the exchange can be handed on. -/
structure Deliverable (exchange : Exchange) : Prop where
  outputs : ∀ name values, exchange.outputs.find? name = some values →
    ∀ value ∈ values, Fits Json.nestingLimit 2 value
  state : HandedOn exchange.state

/-- What holds of the values before and of those that are emitted holds of all. -/
theorem forall_emitAll {good : Json → Prop} {emissions : List (String × Json)}
    {outputs : Emissions} (brought : ∀ emission ∈ emissions, good emission.2)
    (held : ∀ name values, outputs.find? name = some values → ∀ value ∈ values, good value) :
    ∀ name values, (emitAll emissions outputs).find? name = some values →
      ∀ value ∈ values, good value := by
  induction emissions generalizing outputs with
  | nil => exact held
  | cons emission emissions ih =>
      rw [emitAll, List.foldl_cons, ← emitAll]
      refine ih (fun later there => brought later (List.mem_cons_of_mem _ there)) ?_
      intro name values found value here
      rw [SortedTable.find?_alter] at found
      split at found
      · cases found
        rcases List.mem_append.1 here with before | last
        · cases earlier : outputs.find? emission.1 with
          | none => simp [earlier] at before
          | some values =>
              rw [earlier, Option.getD_some] at before
              exact held _ values earlier value before
        · rw [List.mem_singleton.1 last]
          exact brought emission List.mem_cons_self
      · exact held name values found value here

/-- So it is with the variables before and those that are stored. -/
theorem forall_storeAll {good : Json → Prop} {additions : List (String × Json)} {state : Values}
    (brought : ∀ stored ∈ additions, good stored.2)
    (held : ∀ name value, state.find? name = some value → good value) :
    ∀ name value, (storeAll additions state).find? name = some value → good value := by
  induction additions generalizing state with
  | nil => exact held
  | cons stored additions ih =>
      rw [storeAll, List.foldl_cons, ← storeAll]
      refine ih (fun later there => brought later (List.mem_cons_of_mem _ there)) ?_
      intro name value found
      rw [Table.find?_insert] at found
      split at found
      · cases found
        exact brought stored List.mem_cons_self
      · exact held name value found

theorem handedOn_storeAll {additions : List (String × Json)} {state : Values}
    (brought : ∀ stored ∈ additions, Fits Json.nestingLimit 1 stored.2)
    (held : HandedOn state) : HandedOn (storeAll additions state) := by
  rw [handedOn_values_iff] at held ⊢
  exact forall_storeAll brought held

theorem Deliverable.perform {operation : Operation} {exchange : Exchange}
    (brought : operation.Deliverable) (held : exchange.Deliverable) :
    (Exchange.perform operation exchange).state.Deliverable := by
  rw [state_perform]
  exact ⟨forall_emitAll (brought.fits_emits _) held.outputs,
    handedOn_storeAll (brought.fits_stores _) held.state⟩

theorem Deliverable.performAll {operations : List Operation} {exchange : Exchange}
    (brought : ∀ operation ∈ operations, operation.Deliverable) (held : exchange.Deliverable) :
    (Exchange.performAll operations exchange).Deliverable := by
  induction operations generalizing exchange with
  | nil => exact held
  | cons operation operations ih =>
      rw [performAll_cons]
      exact ih (fun later there => brought later (List.mem_cons_of_mem _ there))
        (held.perform (brought operation List.mem_cons_self))

end Exchange

end RunExchange
