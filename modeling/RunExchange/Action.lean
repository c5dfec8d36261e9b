import RunExchange.Logging.Event
/-!
# Action -- work on a state that may fail and reports events

An action takes a state and returns its result, the state that it leaves and
the events that it emitted, in order.  A failing action still leaves a state and
events: what was done before the failure stays done.  Actions in sequence stop
at the first failure.
-/

namespace RunExchange

set_option autoImplicit false

/-- What an action leaves behind. -/
structure Report (σ ε α : Type) where
  result : Except ε α
  state : σ
  events : List Event

/-- Work on a state of type `σ` that fails with an `ε` or returns an `α`. -/
def Action (σ ε α : Type) : Type := σ → Report σ ε α

namespace Action

variable {σ ε α β : Type}

protected def pure (value : α) : Action σ ε α := fun state => ⟨.ok value, state, []⟩

/-- One action, then another with its result, unless the first one fails. -/
protected def bind (action : Action σ ε α) (next : α → Action σ ε β) : Action σ ε β :=
  fun state =>
    let first := action state
    match first.result with
    | .error error => ⟨.error error, first.state, first.events⟩
    | .ok value =>
        let second := next value first.state
        ⟨second.result, second.state, first.events ++ second.events⟩

instance : Monad (Action σ ε) where
  pure := Action.pure
  bind := Action.bind

/-- Fail without touching the state. -/
def fail (error : ε) : Action σ ε α := fun state => ⟨.error error, state, []⟩

def emit (event : Event) : Action σ ε Unit := fun state => ⟨.ok (), state, [event]⟩

/-- Look at the state. -/
def inspect : Action σ ε σ := fun state => ⟨.ok state, state, []⟩

/-- A result that needs no state. -/
def lift : Except ε α → Action σ ε α
  | .ok value => Action.pure value
  | .error error => fail error

/-- The same work with its failure put in other words. -/
def mapError {ε' : Type} (f : ε → ε') (action : Action σ ε α) : Action σ ε' α :=
  fun state =>
    let report := action state
    ⟨report.result.mapError f, report.state, report.events⟩

end Action

end RunExchange
