import SyntheticAccess.Event

/-!
# Outcomes

An operation on some state answers or fails, leaves a state behind in either
case, and tells an observer what happened on the way. All three are in its
outcome. That a failing operation leaves the state as it was is therefore
something to be said about the operation, and not a matter of course.

## Main definitions

* `Outcome`: An answer or failure, the state afterwards, and the events.
* `Outcome.andThen`: Going on after an answer, and stopping at a failure.
* `Outcome.map`: Changing the answer only.
-/

namespace SyntheticAccess

/-- What an operation on a state leads to. -/
structure Outcome (ε σ α : Type) where
  answer : Except ε α
  /-- The state after the operation, whether it failed or not. -/
  state : σ
  events : List Event

namespace Outcome

variable {ε σ α β : Type}

/-- Go on with another operation where the first one left off. A failure ends
    the sequence and keeps the state that was reached. -/
def andThen (o : Outcome ε σ α) (next : α → σ → Outcome ε σ β) : Outcome ε σ β :=
  match o.answer with
  | .error e => ⟨.error e, o.state, o.events⟩
  | .ok a =>
    let p := next a o.state
    ⟨p.answer, p.state, o.events ++ p.events⟩

/-- Change the answer of an operation. -/
def map (f : α → β) (o : Outcome ε σ α) : Outcome ε σ β :=
  ⟨o.answer.map f, o.state, o.events⟩

end Outcome

end SyntheticAccess
