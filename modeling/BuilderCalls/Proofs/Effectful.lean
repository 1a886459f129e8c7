import BuilderCalls.Effectful

/-!
# Performing actions

What comes of an action is read off its steps: each primitive has one equation for
`perform`, and a sequence of actions is performed up to the first that fails.
-/

namespace BuilderCalls

namespace Effectful

variable {σ α β : Type}

@[simp] theorem perform_pure (value : α) (state : σ) :
    perform (pure value) state = (.ok value, state) :=
  rfl

theorem perform_bind (action : Effectful σ α) (next : α → Effectful σ β) (state : σ) :
    perform (action >>= next) state =
      match perform action state with
      | (.ok value, middle) => perform (next value) middle
      | (.error failure, final) => (.error failure, final) := by
  unfold perform
  simp only [ExceptT.run_bind, StateT.run_bind]
  rcases action.run.run state with ⟨outcome, final⟩
  cases outcome <;> simp <;> rfl

theorem perform_map (change : α → β) (action : Effectful σ α) (state : σ) :
    perform (change <$> action) state =
      (change <$> (perform action state).1, (perform action state).2) := by
  unfold perform
  simp only [ExceptT.run_map, StateT.run_map]
  rfl

@[simp] theorem perform_lift (result : Except Failure α) (state : σ) :
    perform (liftM result) state = (result, state) :=
  rfl

section Outcomes

variable {action : Effectful σ α} {next : α → Effectful σ β} {change : α → β}
  {state middle final : σ} {failure : Failure}

theorem perform_bind_of_ok {value : α} (haction : perform action state = (.ok value, middle)) :
    perform (action >>= next) state = perform (next value) middle := by
  rw [perform_bind, haction]

theorem perform_bind_of_error (haction : perform action state = (.error failure, final)) :
    perform (action >>= next) state = (.error failure, final) := by
  rw [perform_bind, haction]

theorem perform_map_of_ok {value : α} (haction : perform action state = (.ok value, final)) :
    perform (change <$> action) state = (.ok (change value), final) := by
  rw [perform_map, haction]
  rfl

theorem perform_map_of_error (haction : perform action state = (.error failure, final)) :
    perform (change <$> action) state = (.error failure, final) := by
  rw [perform_map, haction]
  rfl

theorem perform_bind_eq_ok {value : β}
    (hbind : perform (action >>= next) state = (.ok value, final)) :
    ∃ first middle, perform action state = (.ok first, middle) ∧
      perform (next first) middle = (.ok value, final) := by
  rw [perform_bind] at hbind
  rcases haction : perform action state with ⟨outcome, middle⟩
  rw [haction] at hbind
  cases outcome with
  | ok first => exact ⟨first, middle, rfl, hbind⟩
  | error => cases hbind

theorem perform_bind_eq_error (hbind : perform (action >>= next) state = (.error failure, final)) :
    perform action state = (.error failure, final) ∨
      ∃ first middle, perform action state = (.ok first, middle) ∧
        perform (next first) middle = (.error failure, final) := by
  rw [perform_bind] at hbind
  rcases haction : perform action state with ⟨outcome, middle⟩
  rw [haction] at hbind
  cases outcome with
  | ok first => exact .inr ⟨first, middle, rfl, hbind⟩
  | error =>
      cases hbind
      exact .inl rfl

theorem perform_map_eq_ok {value : β}
    (hmap : perform (change <$> action) state = (.ok value, final)) :
    ∃ first, perform action state = (.ok first, final) ∧ change first = value := by
  rw [perform_map] at hmap
  rcases haction : perform action state with ⟨outcome, middle⟩
  rw [haction] at hmap
  cases outcome with
  | ok first =>
      cases hmap
      exact ⟨first, rfl, rfl⟩
  | error => cases hmap

theorem perform_map_eq_error (hmap : perform (change <$> action) state = (.error failure, final)) :
    perform action state = (.error failure, final) := by
  rw [perform_map] at hmap
  rcases haction : perform action state with ⟨outcome, middle⟩
  rw [haction] at hmap
  cases outcome with
  | ok => cases hmap
  | error =>
      cases hmap
      rfl

end Outcomes

end Effectful

end BuilderCalls
