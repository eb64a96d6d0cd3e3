/-!
Actions: computations that read and change a state and may fail. What an action has done to the
state before it fails stays done.
-/

namespace ShellPrompt

/-- A computation on a state of type `σ` that may fail with an error of type `ε`. -/
def Action (σ ε α : Type) : Type := σ → Except ε α × σ

namespace Action

variable {σ τ ε δ α β : Type}

/-- Yields a value and does nothing. -/
protected def pure (value : α) : Action σ ε α := fun state => (.ok value, state)

/-- Goes on with the value of an action, unless that fails. -/
protected def bind (first : Action σ ε α) (next : α → Action σ ε β) : Action σ ε β := fun state =>
  match first state with
  | (.ok value, state) => next value state
  | (.error error, state) => (.error error, state)

instance : Monad (Action σ ε) where
  pure := Action.pure
  bind := Action.bind

/-- Fails. -/
def fail (error : ε) : Action σ ε α := fun state => (.error error, state)

/-- Yields a result that was worked out before. -/
def ofExcept (result : Except ε α) : Action σ ε α := fun state => (result, state)

/-- Yields the state. -/
def get : Action σ ε σ := fun state => (.ok state, state)

/-- Changes the state. -/
def modify (change : σ → σ) : Action σ ε Unit := fun state => (.ok (), change state)

/-- Goes on with another action where one fails. -/
def orElse (action : Action σ ε α) (rescue : ε → Action σ ε α) : Action σ ε α := fun state =>
  match action state with
  | (.ok value, state) => (.ok value, state)
  | (.error error, state) => rescue error state

/-- Does something at the end, whether the action fails or not. -/
def andFinally (action : Action σ ε α) (change : σ → σ) : Action σ ε α := fun state =>
  let (result, state) := action state
  (result, change state)

/-- Runs an action on a part of a larger state. -/
def onPart (part : τ → σ) (replace : τ → σ → τ) (cause : ε → δ) (action : Action σ ε α) :
    Action τ δ α := fun state =>
  let (result, inner) := action (part state)
  (result.mapError cause, replace state inner)

@[simp] theorem pure_run (value : α) (state : σ) :
    (pure value : Action σ ε α) state = (.ok value, state) := rfl

@[simp] theorem fail_run (error : ε) (state : σ) :
    (fail error : Action σ ε α) state = (.error error, state) := rfl

@[simp] theorem ofExcept_run (result : Except ε α) (state : σ) :
    ofExcept result state = (result, state) := rfl

@[simp] theorem get_run (state : σ) : (get : Action σ ε σ) state = (.ok state, state) := rfl

@[simp] theorem modify_run (change : σ → σ) (state : σ) :
    (modify change : Action σ ε Unit) state = (.ok (), change state) := rfl

theorem bind_run (first : Action σ ε α) (next : α → Action σ ε β) (state : σ) :
    (first >>= next) state = match first state with
      | (.ok value, state) => next value state
      | (.error error, state) => (.error error, state) := rfl

theorem get_bind_run (next : σ → Action σ ε β) (state : σ) :
    (get >>= next) state = next state state := rfl

/-- Of the first action only what it does to the state at hand counts. -/
theorem bind_congr_run {first other : Action σ ε α} {next following : α → Action σ ε β} {state : σ}
    (h : first state = other state) (hnext : ∀ value, next value = following value) :
    (first >>= next) state = (other >>= following) state := by
  obtain rfl : next = following := funext hnext
  rw [bind_run, bind_run, h]

/-- An action succeeds if both its parts do, one after the other. -/
theorem bind_eq_ok_iff {first : Action σ ε α} {next : α → Action σ ε β} {state last : σ}
    {value : β} :
    (first >>= next) state = (.ok value, last) ↔
      ∃ middle between, first state = (.ok middle, between) ∧
        next middle between = (.ok value, last) := by
  rw [bind_run]
  rcases first state with ⟨_ | middle, between⟩
  · simp
  · constructor
    · intro h
      exact ⟨middle, between, rfl, h⟩
    · rintro ⟨_, _, heq, h⟩
      cases heq
      exact h

/-- An action fails where its first part does, or behind it where the second part does. -/
theorem bind_eq_error_iff {first : Action σ ε α} {next : α → Action σ ε β} {state last : σ}
    {error : ε} :
    (first >>= next) state = (.error error, last) ↔ first state = (.error error, last) ∨
      ∃ middle between, first state = (.ok middle, between) ∧
        next middle between = (.error error, last) := by
  rw [bind_run]
  rcases first state with ⟨_ | middle, between⟩
  · simp
  · constructor
    · intro h
      exact .inr ⟨middle, between, rfl, h⟩
    · rintro (heq | ⟨_, _, heq, h⟩)
      · cases heq
      · cases heq
        exact h

theorem map_run (f : α → β) (action : Action σ ε α) (state : σ) :
    (f <$> action) state = ((action state).1.map f, (action state).2) := by
  have hmap : (f <$> action) state = match action state with
    | (.ok value, state) => (.ok (f value), state)
    | (.error error, state) => (.error error, state) := rfl
  rw [hmap]
  rcases action state with ⟨_ | _, _⟩ <;> rfl

/-- What is done with a value has no part in whether there is one. -/
theorem map_eq_error_iff {f : α → β} {action : Action σ ε α} {state : σ} {error : ε} :
    ((f <$> action) state).1 = .error error ↔ (action state).1 = .error error := by
  rw [map_run]
  cases (action state).1 <;> simp [Except.map]

theorem map_eq_ok_iff {f : α → β} {action : Action σ ε α} {state last : σ} {value : β} :
    (f <$> action) state = (.ok value, last) ↔
      ∃ first, action state = (.ok first, last) ∧ f first = value := by
  have hmap : (f <$> action) state = match action state with
    | (.ok first, state) => (.ok (f first), state)
    | (.error error, state) => (.error error, state) := rfl
  rw [hmap]
  rcases action state with ⟨_ | first, between⟩
  · simp
  · constructor
    · intro h
      cases h
      exact ⟨first, rfl, rfl⟩
    · rintro ⟨_, heq, rfl⟩
      cases heq
      rfl

theorem bind_pure_run (action : Action σ ε α) : (action >>= fun value => pure value) = action := by
  funext state
  rw [bind_run]
  rcases action state with ⟨_ | _, _⟩ <;> rfl

theorem bind_bind_run {γ : Type} (action : Action σ ε α) (f : α → Action σ ε β)
    (g : β → Action σ ε γ) : action >>= f >>= g = action >>= fun value => f value >>= g := by
  funext state
  simp only [bind_run]
  rcases action state with ⟨_ | _, _⟩ <;> rfl

instance : LawfulMonad (Action σ ε) :=
  .mk' (Action σ ε) bind_pure_run (fun _ _ => rfl) bind_bind_run

end Action

end ShellPrompt
