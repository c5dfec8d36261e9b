import Mathlib.Tactic
import RunExchange.Proofs.Exchange.Startup
import RunExchange.Proofs.Exchange.Growth
/-!
# Proofs.Exchange.Listings -- what is listed is what can be accessed

An exchange lists its inputs, those of them that have a value, and its outputs.  The
input listing has the names with a value first and then the conditional ones, so that
a name in both groups is listed twice or more (`InputsListed`).  Reading an input
fails as undefined exactly if it is not listed.  A conditional input is read as its
default, whatever value it has, and fails as not connected without one; any other
input is read as its value, whatever the default (`ReadsAsListed`).  An output takes a
value, a closing or an indefinite mark exactly if it is listed (`WritesAsListed`).

All of this follows from what was loaded, so it is the same at any time of a run
(`listings_match_access`).
-/

namespace RunExchange

set_option autoImplicit false

namespace Exchange

/-- What an exchange answers to an operation. -/
def reply (exchange : Exchange) (operation : Operation) : Except ExchangeError Answer :=
  (perform operation exchange).result

/-- A listing of the inputs and one of those with a value, for the inputs that were
loaded. -/
structure InputsListed (loaded : Exchange) (listed supplied : List String) : Prop where
  /-- The names with a value come first, and each of them once. -/
  order : listed = supplied ++ loaded.requiredIfConnected
  once : supplied.Nodup
  mem_supplied : ∀ name, name ∈ supplied ↔ ∃ value, loaded.inputs.find? name = some value
  count : ∀ name, listed.count name =
    loaded.requiredIfConnected.count name + if (loaded.inputs.find? name).isSome then 1 else 0

/-- How an input is read with a default, for the inputs that were loaded and listed. -/
structure ReadsAsListed (loaded : Exchange) (listed : List String) (name : String)
    (default : Option Json) (reply : Except ExchangeError Answer) : Prop where
  notDefined : reply = .error (.inputNotDefined name) ↔ name ∉ listed
  notConnected : reply = .error (.inputNotConnected name) ↔
    name ∈ loaded.requiredIfConnected ∧ (default = none ∨ default = some .null)
  noOther : ∀ error, reply = .error error →
    error = .inputNotDefined name ∨ error = .inputNotConnected name
  /-- A conditional input has the value of its default. -/
  conditional : name ∈ loaded.requiredIfConnected → ∀ value, default = some value →
    value ≠ .null → reply = .ok (.value value)
  /-- Any other input has the value that was loaded. -/
  unconditional : name ∉ loaded.requiredIfConnected → ∀ value,
    loaded.inputs.find? name = some value → reply = .ok (.value value)

/-- How the outputs that are listed can be used. -/
structure WritesAsListed (declared : List String) (name : String)
    (reply : Except ExchangeError Answer) : Prop where
  accepted : reply = .ok .done ↔ name ∈ declared
  refused : ∀ error, reply = .error error ↔ name ∉ declared ∧ error = .outputNotDefined name

/-! ## Inputs -/

theorem inputsListed (exchange : Exchange) :
    InputsListed exchange exchange.inputNames exchange.suppliedInputNames where
  order := rfl
  once := exchange.inputs.nodup
  mem_supplied name := by
    rw [← Option.isSome_iff_exists, ← Option.ne_none_iff_isSome, ne_eq, Table.find?_eq_none_iff,
      not_not]
    rfl
  count name := by
    rw [inputNames, List.count_append, Nat.add_comm]
    congr 1
    split
    · next valued =>
        refine List.count_eq_one_of_mem exchange.inputs.nodup ?_
        by_contra absent
        simp [Table.find?_eq_none_iff.2 absent] at valued
    · next unvalued =>
        refine List.count_eq_zero.2 (Table.find?_eq_none_iff.1 ?_)
        simpa using unvalued

theorem mem_inputNames {exchange : Exchange} {name : String} :
    name ∈ exchange.inputNames ↔
      name ∈ exchange.requiredIfConnected ∨ ∃ value, exchange.inputs.find? name = some value := by
  rw [inputNames, List.mem_append, or_comm]
  exact or_congr_right ((inputsListed exchange).mem_supplied name)

theorem supplied_eq_none_iff {default : Option Json} :
    supplied default = none ↔ default = none ∨ default = some .null := by
  cases default with
  | none => simp [supplied]
  | some value => cases value <;> simp [supplied, Option.filter, Json.isNull]

theorem supplied_of_ne_null {value : Json} (something : value ≠ .null) :
    supplied (some value) = some value := by
  cases value with
  | null => exact absurd rfl something
  | _ => rfl

theorem reply_readInput (exchange : Exchange) (name : String) (default : Option Json) :
    exchange.reply (.readInput name default) = (exchange.readInput name default).map .value := by
  show (answer _ exchange).result = _
  cases exchange.readInput name default <;> rfl

theorem readsAsListed (exchange : Exchange) (name : String) (default : Option Json) :
    ReadsAsListed exchange exchange.inputNames name default
      (exchange.reply (.readInput name default)) := by
  rw [reply_readInput, readInput]
  by_cases conditional : name ∈ exchange.requiredIfConnected
  · have listed : ¬ name ∉ exchange.inputNames := not_not.2 (mem_inputNames.2 (.inl conditional))
    rw [if_pos conditional]
    cases given : supplied default with
    | none =>
        have missing := supplied_eq_none_iff.1 given
        exact {
          notDefined := iff_of_false nofun listed
          notConnected := iff_of_true rfl ⟨conditional, missing⟩
          noOther := by
            rintro _ ⟨⟩
            exact .inr rfl
          conditional := by
            rintro - value rfl something
            rw [supplied_of_ne_null something] at given
            cases given
          unconditional := fun other => absurd conditional other }
    | some value =>
        exact {
          notDefined := iff_of_false nofun listed
          notConnected := by
            refine iff_of_false nofun fun ⟨_, missing⟩ => ?_
            rw [supplied_eq_none_iff.2 missing] at given
            cases given
          noOther := nofun
          conditional := by
            rintro - other rfl something
            rw [supplied_of_ne_null something] at given
            cases given
            rfl
          unconditional := fun other => absurd conditional other }
  · rw [if_neg conditional]
    cases found : exchange.inputs.find? name with
    | none =>
        have unlisted : name ∉ exchange.inputNames := by
          rw [mem_inputNames, found]
          exact fun listed => listed.elim conditional nofun
        exact {
          notDefined := iff_of_true rfl unlisted
          notConnected := iff_of_false nofun fun other => conditional other.1
          noOther := by
            rintro _ ⟨⟩
            exact .inl rfl
          conditional := fun other => absurd other conditional
          unconditional := by
            rintro - value held
            rw [found] at held
            cases held }
    | some value =>
        have listed : ¬ name ∉ exchange.inputNames :=
          not_not.2 (mem_inputNames.2 (.inr ⟨value, found⟩))
        exact {
          notDefined := iff_of_false nofun listed
          notConnected := iff_of_false nofun fun other => conditional other.1
          noOther := nofun
          conditional := fun other => absurd other conditional
          unconditional := by
            rintro - other held
            rw [found] at held
            cases held
            rfl }

/-- The value that the host supplied for a conditional input is never looked at. -/
theorem reply_readInput_of_conditional {a b : Exchange} {name : String}
    (same : a.requiredIfConnected = b.requiredIfConnected)
    (conditional : name ∈ a.requiredIfConnected) (default : Option Json) :
    a.reply (.readInput name default) = b.reply (.readInput name default) := by
  rw [reply_readInput, reply_readInput, readInput, readInput, if_pos conditional,
    if_pos (same ▸ conditional)]

/-! ## Outputs -/

/-- A change on behalf of an output is made exactly if the output is declared. -/
theorem writesAsListed_ifDeclared (exchange : Exchange) (name : String) (changed : Exchange) :
    WritesAsListed exchange.outputNames name
      (change (exchange.ifDeclared name changed) exchange).result := by
  rw [ifDeclared]
  by_cases declared : name ∈ exchange.outputNames
  · rw [if_pos declared]
    refine ⟨iff_of_true rfl declared, fun error => ⟨?_, ?_⟩⟩
    · rintro ⟨⟩
    · exact fun other => absurd declared other.1
  · rw [if_neg declared]
    refine ⟨⟨?_, fun other => absurd other declared⟩, fun error => ⟨?_, ?_⟩⟩
    · rintro ⟨⟩
    · rintro ⟨⟩
      exact ⟨declared, rfl⟩
    · rintro ⟨-, rfl⟩
      rfl

/-! ## Runs -/

/-- **What is listed is what can be accessed**, at any time of a run and whatever the
store holds.  Inputs are read as they are listed and outputs used as they are listed;
and a conditional input is read alike from any store with the same conditional inputs,
whatever values it has for them. -/
theorem listings_match_access {σ : Type} [Store σ] (store : σ) (operations : List Operation) :
    let loaded := load store
    let now := loaded.performAll operations
    ∃ listed supplied declared,
      now.reply .inputNames = .ok (.names listed) ∧
      now.reply .suppliedInputNames = .ok (.names supplied) ∧
      now.reply .outputNames = .ok (.names declared) ∧
      InputsListed loaded listed supplied ∧
      (∀ name default,
        ReadsAsListed loaded listed name default (now.reply (.readInput name default))) ∧
      (∀ (τ : Type) [Store τ] (other : τ) (others : List Operation),
        Store.read other .requiredIfConnected = Store.read store .requiredIfConnected →
        ∀ name ∈ loaded.requiredIfConnected, ∀ default,
          ((load other).performAll others).reply (.readInput name default) =
            now.reply (.readInput name default)) ∧
      ∀ name value,
        ∀ operation ∈ [.writeOutput name value, .closeOutput name, .leaveIndefinite name],
          WritesAsListed declared name (now.reply operation) := by
  intro loaded now
  have kept : loaded.Extends now := extends_performAll operations loaded
  refine ⟨now.inputNames, now.suppliedInputNames, now.outputNames, rfl, rfl, rfl, ?_, ?_, ?_, ?_⟩
  · obtain ⟨order, once, mem_supplied, count⟩ := inputsListed now
    rw [kept.requiredIfConnected] at order
    simp only [kept.inputs, kept.requiredIfConnected] at mem_supplied count
    exact ⟨order, once, mem_supplied, count⟩
  · intro name default
    obtain ⟨notDefined, notConnected, noOther, conditional, unconditional⟩ :=
      readsAsListed now name default
    rw [kept.requiredIfConnected] at notConnected conditional unconditional
    rw [kept.inputs] at unconditional
    exact ⟨notDefined, notConnected, noOther, conditional, unconditional⟩
  · intro τ _ other others same name conditional default
    have alike : (load other).requiredIfConnected = loaded.requiredIfConnected :=
      (loadsAlike other store).requiredIfConnected same
    have keptThere := (extends_performAll others (load other)).requiredIfConnected
    refine reply_readInput_of_conditional ?_ ?_ default
    · rw [keptThere, kept.requiredIfConnected, alike]
    · rwa [keptThere, alike]
  · intro name value operation here
    simp only [List.mem_cons, List.not_mem_nil, or_false] at here
    rcases here with rfl | rfl | rfl
    all_goals exact writesAsListed_ifDeclared now name _

end Exchange

end RunExchange
