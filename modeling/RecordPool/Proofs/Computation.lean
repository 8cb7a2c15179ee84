import RecordPool.Focus

/-!
# Computations applied to a state

The library runs a computation by applying it to a state.  The equations below carry
such an application through the pieces that computations are made of.
-/

namespace RecordPool

variable {ε ε' σ τ α β : Type}

@[simp]
theorem pure_apply (value : α) (state : σ) :
    (pure value : EStateM ε σ α) state = .ok value state :=
  rfl

@[simp]
theorem bind_apply (first : EStateM ε σ α) (next : α → EStateM ε σ β) (state : σ) :
    (first >>= next) state =
      match first state with
      | .ok value left => next value left
      | .error error left => .error error left :=
  rfl

@[simp]
theorem map_apply (f : α → β) (action : EStateM ε σ α) (state : σ) :
    (f <$> action) state =
      match action state with
      | .ok value left => .ok (f value) left
      | .error error left => .error error left :=
  rfl

@[simp]
theorem get_apply (state : σ) : (get : EStateM ε σ σ) state = .ok state state :=
  rfl

@[simp]
theorem set_apply (next state : σ) : (set next : EStateM ε σ PUnit) state = .ok .unit next :=
  rfl

@[simp]
theorem modify_apply (f : σ → σ) (state : σ) :
    (modify f : EStateM ε σ PUnit) state = .ok .unit (f state) :=
  rfl

@[simp]
theorem throw_apply (error : ε) (state : σ) :
    (throw error : EStateM ε σ α) state = .error error state :=
  rfl

@[simp]
theorem adaptExcept_apply (f : ε → ε') (action : EStateM ε σ α) (state : σ) :
    (EStateM.adaptExcept f action : EStateM ε' σ α) state =
      match action state with
      | .ok value left => .ok value left
      | .error error left => .error (f error) left := by
  unfold EStateM.adaptExcept
  cases action state <;> rfl

@[simp]
theorem ofExcept_ok_apply (value : α) (state : σ) :
    (ofExcept (.ok value : Except ε α) : EStateM ε σ α) state = .ok value state :=
  rfl

@[simp]
theorem ofExcept_error_apply (error : ε) (state : σ) :
    (ofExcept (.error error : Except ε α) : EStateM ε σ α) state = .error error state :=
  rfl

@[simp]
theorem orFault_ok_apply (value : α) (state : σ) :
    (orFault (.ok value) : EStateM (Failure ε) σ α) state = .ok value state :=
  rfl

@[simp]
theorem orFault_error_apply (fault : Fault) (state : σ) :
    (orFault (.error fault) : EStateM (Failure ε) σ α) state = .error (.fault fault) state :=
  rfl

@[simp]
theorem ite_action_apply (condition : Prop) [Decidable condition]
    (first second : EStateM ε σ α) (state : σ) :
    (if condition then first else second : EStateM ε σ α) state =
      if condition then first state else second state := by
  split <;> rfl

/-- The state after a computation, however it ended. -/
def stateLeft : EStateM.Result ε σ α → σ
  | .ok _ state => state
  | .error _ state => state

@[simp]
theorem stateLeft_ok (value : α) (state : σ) :
    stateLeft (.ok value state : EStateM.Result ε σ α) = state :=
  rfl

@[simp]
theorem stateLeft_error (error : ε) (state : σ) :
    stateLeft (.error error state : EStateM.Result ε σ α) = state :=
  rfl

@[simp]
theorem stateLeft_map (f : α → β) (action : EStateM ε σ α) (state : σ) :
    stateLeft ((f <$> action) state) = stateLeft (action state) := by
  rw [map_apply]
  cases action state <;> rfl

@[simp]
theorem stateLeft_bind_pure (action : EStateM ε σ α) (value : β) (state : σ) :
    stateLeft ((action >>= fun _ => pure value) state) = stateLeft (action state) := by
  rw [bind_apply]
  cases action state <;> rfl

@[simp]
theorem stateLeft_adaptExcept (f : ε → ε') (action : EStateM ε σ α) (state : σ) :
    stateLeft ((EStateM.adaptExcept f action : EStateM ε' σ α) state) =
      stateLeft (action state) := by
  rw [adaptExcept_apply]
  cases action state <;> rfl

/-- The answer of a computation, whatever state it left. -/
def answerOf : EStateM.Result ε σ α → Except ε α
  | .ok value _ => .ok value
  | .error error _ => .error error

/-- An outcome with another state in place of its own. -/
def withState (state : τ) : EStateM.Result ε σ α → EStateM.Result ε τ α
  | .ok value _ => .ok value state
  | .error error _ => .error error state

@[simp]
theorem stateLeft_withState (state : τ) (outcome : EStateM.Result ε σ α) :
    stateLeft (withState state outcome) = state := by
  cases outcome <;> rfl

@[simp]
theorem answerOf_withState (state : τ) (outcome : EStateM.Result ε σ α) :
    answerOf (withState state outcome) = answerOf outcome := by
  cases outcome <;> rfl

/-- A sequence that ends well had a first part that ended well. -/
theorem bind_eq_ok_iff {first : EStateM ε σ α} {next : α → EStateM ε σ β} {state after : σ}
    {result : β} :
    (first >>= next) state = .ok result after ↔
      ∃ value left, first state = .ok value left ∧ next value left = .ok result after := by
  rw [bind_apply]
  constructor
  · intro done
    cases outcome : first state with
    | error error left =>
        rw [outcome] at done
        cases done
    | ok value left =>
        rw [outcome] at done
        exact ⟨value, left, rfl, done⟩
  · rintro ⟨value, left, outcome, done⟩
    rw [outcome]
    exact done

theorem adaptExcept_eq_ok_iff {f : ε → ε'} {action : EStateM ε σ α} {state after : σ}
    {result : α} :
    (EStateM.adaptExcept f action : EStateM ε' σ α) state = .ok result after ↔
      action state = .ok result after := by
  rw [adaptExcept_apply]
  cases action state <;> simp

/-- Every run relates the state before it to the one after it, however it ends. -/
def Preserves (relation : σ → σ → Prop) (action : EStateM ε σ α) : Prop :=
  ∀ state, relation state (stateLeft (action state))

namespace Preserves

variable {relation : σ → σ → Prop}

theorem pure (refl : ∀ state, relation state state) (value : α) :
    Preserves relation (Pure.pure value : EStateM ε σ α) := by
  intro state
  exact refl state

theorem get (refl : ∀ state, relation state state) :
    Preserves relation (MonadState.get : EStateM ε σ σ) := by
  intro state
  exact refl state

theorem throw (refl : ∀ state, relation state state) (error : ε) :
    Preserves relation (MonadExcept.throw error : EStateM ε σ α) := by
  intro state
  exact refl state

theorem modify {f : σ → σ} (step : ∀ state, relation state (f state)) :
    Preserves relation (modifyGet fun state => (.unit, f state) : EStateM ε σ PUnit) := by
  intro state
  exact step state

theorem ofExcept (refl : ∀ state, relation state state) (result : Except ε α) :
    Preserves relation (MonadExcept.ofExcept result : EStateM ε σ α) := by
  intro state
  cases result <;> exact refl state

theorem bind (trans : ∀ first second third,
      relation first second → relation second third → relation first third)
    {first : EStateM ε σ α} {next : α → EStateM ε σ β} (before : Preserves relation first)
    (after : ∀ value, Preserves relation (next value)) :
    Preserves relation (first >>= next) := by
  intro state
  have step := before state
  rw [bind_apply]
  cases outcome : first state with
  | error error left =>
      rw [outcome] at step
      exact step
  | ok value middle =>
      rw [outcome] at step
      exact trans _ _ _ step (after value middle)

theorem of_ok {action : EStateM ε σ α} (preserves : Preserves relation action)
    {state after : σ} {value : α} (done : action state = .ok value after) :
    relation state after := by
  have kept := preserves state
  rw [done] at kept
  exact kept

theorem adaptExcept {f : ε → ε'} {action : EStateM ε σ α}
    (preserves : Preserves relation action) :
    Preserves relation (EStateM.adaptExcept f action : EStateM ε' σ α) := by
  intro state
  rw [stateLeft_adaptExcept]
  exact preserves state

end Preserves

@[simp]
theorem except_ok_bind (value : α) (next : α → Except ε β) :
    ((.ok value : Except ε α) >>= next) = next value :=
  rfl

@[simp]
theorem except_error_bind (error : ε) (next : α → Except ε β) :
    ((.error error : Except ε α) >>= next) = .error error :=
  rfl

/-- A sequence that ends well had a first step that ended well. -/
theorem except_bind_eq_ok_iff {first : Except ε α} {next : α → Except ε β} {result : β} :
    first >>= next = .ok result ↔ ∃ value, first = .ok value ∧ next value = .ok result := by
  constructor
  · intro done
    cases first with
    | error error => cases done
    | ok value => exact ⟨value, rfl, done⟩
  · rintro ⟨value, rfl, done⟩
    exact done

theorem except_map_eq_ok_iff {f : α → β} {action : Except ε α} {result : β} :
    f <$> action = .ok result ↔ ∃ value, action = .ok value ∧ f value = result := by
  constructor
  · intro done
    cases action with
    | error error => cases done
    | ok value => exact ⟨value, rfl, Except.ok.inj done⟩
  · rintro ⟨value, rfl, rfl⟩
    rfl

end RecordPool
