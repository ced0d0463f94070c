/-! The state that an action leaves, and actions that fail or succeed. -/
namespace FormatNegotiation

variable {ε σ α β : Type} {act : EStateM ε σ α} {s s' : σ} {x : α} {e : ε}

/-- The state that an action leaves, whether it succeeds or fails. -/
def stateAfter (act : EStateM ε σ α) (s : σ) : σ :=
  match act s with
  | .ok _ s' => s'
  | .error _ s' => s'

theorem stateAfter_of_ok (h : act s = .ok x s') : stateAfter act s = s' := by
  rw [stateAfter, h]

theorem stateAfter_of_error (h : act s = .error e s') : stateAfter act s = s' := by
  rw [stateAfter, h]

@[simp] theorem stateAfter_map (f : α → β) (act : EStateM ε σ α) (s : σ) :
    stateAfter (f <$> act) s = stateAfter act s := by
  simp only [stateAfter, Functor.map, EStateM.map]
  cases act s <;> rfl

/-- After a failure the second of two actions does not take place. -/
theorem stateAfter_bind (act : EStateM ε σ α) (f : α → EStateM ε σ β) (s : σ) :
    stateAfter (act >>= f) s =
      match act s with
      | .ok x s' => stateAfter (f x) s'
      | .error _ s' => s' := by
  simp only [stateAfter, bind, EStateM.bind]
  cases act s <;> rfl

theorem map_eq_error_iff {f : α → β} : (f <$> act) s = .error e s' ↔ act s = .error e s' := by
  simp only [Functor.map, EStateM.map]
  cases act s <;> simp

theorem map_eq_ok_iff {f : α → β} {y : β} :
    (f <$> act) s = .ok y s' ↔ ∃ x, act s = .ok x s' ∧ f x = y := by
  simp only [Functor.map, EStateM.map]
  cases act s <;> simp [and_assoc, and_comm]

theorem bind_eq_ok_iff {f : α → EStateM ε σ β} {y : β} {s'' : σ} :
    (act >>= f) s = .ok y s'' ↔ ∃ x s', act s = .ok x s' ∧ f x s' = .ok y s'' := by
  simp only [bind, EStateM.bind]
  cases act s <;> simp [and_assoc]

theorem bind_eq_error_iff {f : α → EStateM ε σ β} {s'' : σ} :
    (act >>= f) s = .error e s'' ↔
      act s = .error e s'' ∨ ∃ x s', act s = .ok x s' ∧ f x s' = .error e s'' := by
  simp only [bind, EStateM.bind]
  cases act s <;> simp [and_assoc]

theorem exists_ok_of_run' (h : act.run' s = some x) : ∃ s', act s = .ok x s' := by
  unfold EStateM.run' EStateM.run at h
  cases hres : act s with
  | error e s' => simp [hres] at h
  | ok y s' =>
    obtain rfl : y = x := by simpa [hres] using h
    exact ⟨s', rfl⟩

theorem exists_error_of_run' (h : act.run' s = none) : ∃ e s', act s = .error e s' := by
  unfold EStateM.run' EStateM.run at h
  cases hres : act s with
  | error e s' => exact ⟨e, s', rfl⟩
  | ok x s' => simp [hres] at h

end FormatNegotiation
