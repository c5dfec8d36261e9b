import Mathlib
import RunExchange.Proofs.Exchange.Growth
/-!
# Proofs.Exchange.Closing -- closing every output

Closing every output goes through the declared outputs and closes one after the
other, by an operation that may fail and on a list that grows on the way.  It
never fails, and what it adds are the outputs that were open (`openOutputs`): an
output that is declared twice is closed once, where it was first declared, and
one that was closed before stays where it is (`Consistent.perform_closeAllOutputs`).

Then every declared output is closed (`AllClosed`).  Operations take no output
back, so that holds from then on, and closing outputs again changes nothing at any
later time (`closing_all_is_exact`).
-/

namespace RunExchange

set_option autoImplicit false

namespace Exchange

/-! ## Names in the order in which they first come -/

/-- A name that is added at the end stands after those that are there already, and these
stand as before. -/
theorem idxOf_lt_of_append {names : List String} {last a b : String} (first : a ∈ names)
    (ordered : b ∈ names → names.idxOf a < names.idxOf b) :
    (names ++ [last]).idxOf a < (names ++ [last]).idxOf b := by
  rw [List.idxOf_append_of_mem first]
  by_cases here : b ∈ names
  · rw [List.idxOf_append_of_mem here]
    exact ordered here
  · rw [List.idxOf_append_of_notMem here]
    exact Nat.lt_add_right _ (List.idxOf_lt_length_of_mem first)

/-- What is kept of a list, without the repetitions, stands in the order in which the
list first has it. -/
theorem pairwise_idxOf_eraseDups_filter (keep : String → Bool) (names : List String) :
    (names.filter keep).eraseDups.Pairwise fun a b => names.idxOf a < names.idxOf b := by
  -- The induction is on the end of the list, where a new name comes after all others.
  induction names using List.reverseRecOn with
  | nil => exact List.Pairwise.nil
  | append_singleton names last ih =>
      have among : ∀ name ∈ (names.filter keep).eraseDups, name ∈ names := fun name here =>
        List.mem_of_mem_filter (List.mem_eraseDups.1 here)
      have earlier : (names.filter keep).eraseDups.Pairwise fun a b =>
          (names ++ [last]).idxOf a < (names ++ [last]).idxOf b :=
        ih.imp_of_mem fun first _ ordered =>
          idxOf_lt_of_append (among _ first) fun _ => ordered
      by_cases kept : keep last = true
      · rw [List.filter_append, List.filter_cons_of_pos kept, List.filter_nil, ← mark_eraseDups,
          mark]
        split
        · exact earlier
        · next absent =>
            have new : last ∉ names := fun here =>
              absent (List.mem_eraseDups.2 (List.mem_filter.2 ⟨here, kept⟩))
            refine List.pairwise_append.2 ⟨earlier, List.pairwise_singleton _ _, ?_⟩
            intro name here other there
            rw [List.mem_singleton.1 there]
            exact idxOf_lt_of_append (among name here) fun known => absurd known new
      · rw [List.filter_append, List.filter_cons_of_neg kept, List.filter_nil, List.append_nil]
        exact earlier

/-! ## What is open -/

/-- The declared outputs that are not closed, each where it is first declared. -/
def openOutputs (exchange : Exchange) : List String :=
  (exchange.outputNames.filter (· ∉ exchange.closed)).eraseDups

/-- The names are those of the outputs still open, each of them once and in the order in
which they are first declared. -/
structure StillOpen (exchange : Exchange) (names : List String) : Prop where
  mem_iff : ∀ name, name ∈ names ↔ name ∈ exchange.outputNames ∧ name ∉ exchange.closed
  once : names.Nodup
  order : names.Pairwise fun a b =>
    exchange.outputNames.idxOf a < exchange.outputNames.idxOf b

theorem stillOpen_openOutputs (exchange : Exchange) :
    exchange.StillOpen exchange.openOutputs where
  mem_iff name := by
    rw [openOutputs, List.mem_eraseDups, List.mem_filter, decide_eq_true_iff]
  once := nodup_eraseDups _
  order := pairwise_idxOf_eraseDups_filter _ _

/-- Every declared output is closed. -/
def AllClosed (exchange : Exchange) : Prop :=
  ∀ name ∈ exchange.outputNames, name ∈ exchange.closed

theorem openOutputs_eq_nil_iff {exchange : Exchange} :
    exchange.openOutputs = [] ↔ exchange.AllClosed := by
  rw [List.eq_nil_iff_forall_not_mem]
  refine forall_congr' fun name => ?_
  rw [exchange.stillOpen_openOutputs.mem_iff, not_and, not_not]

/-! ## Closing -/

/-- **Closing every output closes what is open**, and nothing else happens. -/
theorem Consistent.perform_closeAllOutputs {exchange : Exchange}
    (consistent : exchange.Consistent) :
    Exchange.perform .closeAllOutputs exchange =
      ⟨.ok .done, { exchange with closed := exchange.closed ++ exchange.openOutputs }, []⟩ := by
  show change exchange.closeAllOutputs exchange = _
  rw [closeAllOutputs, closeOutputs_eq exchange fun _ declared => declared,
    markAll_of_nodup consistent.closedOnce]
  rfl

theorem allClosed_of_append_openOutputs (exchange : Exchange) :
    AllClosed { exchange with closed := exchange.closed ++ exchange.openOutputs } := by
  intro name declared
  refine List.mem_append.2 ?_
  by_cases before : name ∈ exchange.closed
  · exact .inl before
  · exact .inr ((exchange.stillOpen_openOutputs.mem_iff name).2 ⟨declared, before⟩)

namespace AllClosed

variable {exchange : Exchange} (all : exchange.AllClosed)
include all

/-- Outputs that are closed stay closed. -/
theorem of_extends {later : Exchange} (grown : exchange.Extends later) : later.AllClosed := by
  intro name declared
  rw [grown.outputNames] at declared
  exact grown.closed.subset (all name declared)

theorem perform_closeAllOutputs (consistent : exchange.Consistent) :
    perform .closeAllOutputs exchange = ⟨.ok .done, exchange, []⟩ := by
  rw [consistent.perform_closeAllOutputs, openOutputs_eq_nil_iff.2 all, List.append_nil]

theorem perform_closeOutput {name : String} (declared : name ∈ exchange.outputNames) :
    perform (.closeOutput name) exchange = ⟨.ok .done, exchange, []⟩ := by
  show change (exchange.closeOutput name) exchange = _
  rw [closeOutput, ifDeclared, if_pos declared, mark, if_pos (all name declared)]
  rfl

end AllClosed

/-- **Closing every output is total and exact**, at any time of a run and whatever the
store holds.  It never fails, and it adds the outputs that are still open to those that
are closed.  From then on every declared output is closed, and a second closing of all
of them, or of one, changes nothing, whatever was done in between. -/
theorem closing_all_is_exact {σ : Type} [Store σ] (store : σ)
    (operations more : List Operation) :
    let loaded := load store
    let exchange := loaded.performAll operations
    let later := loaded.performAll (operations ++ .closeAllOutputs :: more)
    exchange.StillOpen exchange.openOutputs ∧
      perform .closeAllOutputs exchange =
        ⟨.ok .done, { exchange with closed := exchange.closed ++ exchange.openOutputs }, []⟩ ∧
      perform .closeAllOutputs later = ⟨.ok .done, later, []⟩ ∧
      ∀ name ∈ loaded.outputNames,
        name ∈ later.closed ∧ perform (.closeOutput name) later = ⟨.ok .done, later, []⟩ := by
  intro loaded exchange later
  have consistent : exchange.Consistent := (consistent_load store).performAll operations
  have closing := consistent.perform_closeAllOutputs
  have continued : later = (perform .closeAllOutputs exchange).state.performAll more :=
    List.foldl_append
  have all : later.AllClosed := by
    rw [continued, closing]
    exact exchange.allClosed_of_append_openOutputs.of_extends (extends_performAll more _)
  have again := all.perform_closeAllOutputs ((consistent_load store).performAll _)
  refine ⟨exchange.stillOpen_openOutputs, closing, again, fun name declared => ?_⟩
  have known : name ∈ later.outputNames := by
    rw [(extends_performAll _ loaded).outputNames]
    exact declared
  exact ⟨all name known, all.perform_closeOutput known⟩

/-- An output that was closed first stays first, and one that is declared twice is closed
once. -/
theorem repeated_name_is_closed_once :
    let store := MemoryStore.empty.set .declaredOutputs "[\"a\", \"b\", \"c\", \"a\", \"c\"]"
    let operations : List Operation := [.closeOutput "b", .closeOutput "d"]
    let exchange := (load store).performAll operations
    let later := (load store).performAll
      (operations ++ [.closeAllOutputs, .writeOutput "a" .null])
    (perform .closeAllOutputs exchange).state.closed = ["b", "a", "c"] ∧
      "c" ∈ later.closed ∧ perform (.closeOutput "c") later = ⟨.ok .done, later, []⟩ := by
  intro store operations exchange later
  have names : (load store).outputNames = ["a", "b", "c", "a", "c"] := by cbv
  have declared : "c" ∈ (load store).outputNames := by
    rw [names]
    decide
  obtain ⟨-, closing, -, closed⟩ :=
    closing_all_is_exact store operations [.writeOutput "a" .null]
  refine ⟨?_, closed "c" declared⟩
  rw [closing]
  cbv

end Exchange

end RunExchange
