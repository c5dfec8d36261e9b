import Mathlib.Tactic
import RunExchange.Action
/-!
# Proofs.Sequence -- work in sequence

What is done in sequence succeeds exactly if its first part does and the rest
succeeds with the result of that.  This holds of results (`Except.bind_eq_ok_iff`)
and of actions (`Action.bind_eq_ok_iff`).  How a sequence is grouped does not
matter.
-/

namespace RunExchange

set_option autoImplicit false

/-! ## Results -/

section Results

variable {ε ε' α β : Type}

theorem Except.bind_eq_ok_iff {first : Except ε α} {next : α → Except ε β} {value : β} :
    (first >>= next) = .ok value ↔ ∃ middle, first = .ok middle ∧ next middle = .ok value := by
  cases first <;> simp [bind, Except.bind]

theorem Except.map_eq_ok_iff {result : Except ε α} {turn : α → β} {value : β} :
    result.map turn = .ok value ↔ ∃ content, result = .ok content ∧ turn content = value := by
  cases result <;> simp [Except.map]

/-- Putting an error in other words makes no success of it. -/
theorem Except.mapError_eq_ok_iff {result : Except ε α} {turn : ε → ε'} {value : α} :
    result.mapError turn = .ok value ↔ result = .ok value := by
  cases result <;> simp [Except.mapError]

end Results

/-! ## Actions -/

section Laws

variable {σ ε α β γ : Type}

theorem Action.bind_pure (action : Action σ ε α) : Action.bind action Action.pure = action := by
  funext state
  rw [Action.bind]
  cases action state with
  | mk result state events => cases result <;> simp [Action.pure]

theorem Action.bind_assoc (action : Action σ ε α) (next : α → Action σ ε β)
    (last : β → Action σ ε γ) :
    Action.bind (Action.bind action next) last =
      Action.bind action fun value => Action.bind (next value) last := by
  funext state
  simp only [Action.bind]
  cases action state with
  | mk result state events =>
      cases result with
      | error error => rfl
      | ok value =>
          simp only
          cases next value state with
          | mk result state more => cases result <;> simp

/-- What was done before counts in the same order, however it is grouped. -/
instance : LawfulMonad (Action σ ε) :=
  LawfulMonad.mk' (Action σ ε) Action.bind_pure (fun _ _ => rfl) Action.bind_assoc

/-- After a success the work goes on with its result. -/
theorem Action.bind_of_ok {first : Action σ ε α} {next : α → Action σ ε β} {state : σ} {value : α}
    (done : (first state).result = .ok value) :
    ((first >>= next) state).result = (next value (first state).state).result ∧
      ((first >>= next) state).state = (next value (first state).state).state := by
  show (Action.bind first next state).result = _ ∧ (Action.bind first next state).state = _
  rw [Action.bind]
  simp only [done, and_self]

/-- After a failure it does not. -/
theorem Action.bind_of_error {first : Action σ ε α} {next : α → Action σ ε β} {state : σ}
    {error : ε} (failed : (first state).result = .error error) :
    ((first >>= next) state).result = .error error ∧
      ((first >>= next) state).state = (first state).state := by
  show (Action.bind first next state).result = _ ∧ (Action.bind first next state).state = _
  rw [Action.bind]
  simp only [failed, and_self]

/-- Work in sequence succeeds if each part does. -/
theorem Action.bind_eq_ok_iff {first : Action σ ε α} {next : α → Action σ ε β} {state : σ}
    {value : β} :
    ((first >>= next) state).result = .ok value ↔
      ∃ middle, (first state).result = .ok middle ∧
        (next middle (first state).state).result = .ok value := by
  cases ended : (first state).result with
  | error error =>
      rw [(bind_of_error ended).1]
      constructor
      · rintro ⟨⟩
      · rintro ⟨middle, ⟨⟩, -⟩
  | ok middle =>
      rw [(bind_of_ok ended).1]
      constructor
      · exact fun done => ⟨middle, rfl, done⟩
      · rintro ⟨middle, ⟨⟩, done⟩
        exact done

/-- An event at the end is emitted if nothing failed before it. -/
theorem Action.bind_emit (action : Action σ ε Unit) (event : Event) (state : σ) :
    (action >>= fun _ => Action.emit event) state =
      ⟨(action state).result, (action state).state,
        (action state).events ++ match (action state).result with
          | .ok _ => [event]
          | .error _ => []⟩ := by
  show Action.bind action (fun _ => Action.emit event) state = _
  rw [Action.bind]
  cases action state with
  | mk result state events => cases result <;> simp [Action.emit]

end Laws

end RunExchange
