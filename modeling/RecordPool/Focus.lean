import RecordPool.Fault

/-!
# Computations on a part of a state

A computation that changes a state and may fail keeps what it changed when it
fails.  `focus` runs one on a part of a larger state and `wrapped` on the content
of a constructor; `orFault` goes on with what a check lets through.
-/

namespace RecordPool

variable {ε σ τ α : Type}

/-- Runs a computation on the part of a state that `view` shows and `update` puts
back. -/
def focus (view : σ → τ) (update : τ → σ → σ) (action : EStateM ε τ α) : EStateM ε σ α :=
  fun state =>
    match action (view state) with
    | .ok value part => .ok value (update part state)
    | .error error part => .error error (update part state)

/-- The outcome of a computation on the content of a constructor. -/
def wrapped (wrap : τ → σ) : EStateM.Result ε τ α → EStateM.Result ε σ α
  | .ok value content => .ok value (wrap content)
  | .error error content => .error error (wrap content)

/-- What a check lets through.  Its fault is the failure of the computation. -/
def orFault : Except Fault α → EStateM (Failure ε) σ α
  | .ok value => pure value
  | .error fault => throw (.fault fault)

end RecordPool
