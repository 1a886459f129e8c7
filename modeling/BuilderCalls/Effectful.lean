import BuilderCalls.Failure

/-!
# Actions with effects

An action may fail at any point; the state that it has reached by then remains.
-/

namespace BuilderCalls

abbrev Effectful (σ : Type) : Type → Type :=
  ExceptT Failure (StateM σ)

/-- What comes of an action in a state, and the state that it leaves. -/
def Effectful.perform {σ α : Type} (action : Effectful σ α) (state : σ) : Except Failure α × σ :=
  action.run.run state

end BuilderCalls
