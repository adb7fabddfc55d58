import NestedCss.Emission.Drain

namespace NestedCss

variable {σ ε : Type} {next : σ → Option (σ × Except ε Unit)} {P : σ → Prop} {measure : σ → Nat}

/-- Every task keeps a property of the state and lowers a measure. -/
structure Exhausting (next : σ → Option (σ × Except ε Unit)) (P : σ → Prop) (measure : σ → Nat) : Prop where
  keeps : ∀ {state after : σ} {result : Except ε Unit}, P state → next state = some (after, result) → P after
  lowers : ∀ {state after : σ} {result : Except ε Unit}, P state → next state = some (after, result) →
    measure after < measure state

namespace Exhausting

/-- Any two bounds that are large enough come to the same. -/
theorem drain_congr (exhausting : Exhausting next P measure) {bound bound' : Nat} {state : σ} (holds : P state)
    (enough : measure state ≤ bound) (enough' : measure state ≤ bound') :
    drain next bound state = drain next bound' state := by
  induction bound generalizing bound' state with
  | zero =>
    cases step : next state with
    | none => rw [drain_of_none step, drain_of_none step]
    | some taken =>
      have lower := exhausting.lowers holds step
      omega
  | succ bound ih =>
    cases step : next state with
    | none => rw [drain_of_none step, drain_of_none step]
    | some taken =>
      obtain ⟨after, result⟩ := taken
      have lower := exhausting.lowers holds step
      have kept := exhausting.keeps holds step
      obtain ⟨bound', rfl⟩ := Nat.exists_eq_add_one_of_ne_zero (by omega : bound' ≠ 0)
      have rest := ih kept (by omega : measure after ≤ bound) (by omega : measure after ≤ bound')
      cases result with
      | error e => simp only [drain, step]
      | ok => simp only [drain, step, rest]

/-- A task that succeeds is counted, and the rest is drained. -/
theorem drain_of_ok (exhausting : Exhausting next P measure) {state after : σ} (holds : P state)
    (step : next state = some (after, .ok ())) :
    drain next (measure state) state =
      ((drain next (measure after) after).1, (drain next (measure after) after).2.map (· + 1)) := by
  have lower := exhausting.lowers holds step
  have kept := exhausting.keeps holds step
  obtain ⟨bound, same⟩ := Nat.exists_eq_add_one_of_ne_zero (by omega : measure state ≠ 0)
  have rest := exhausting.drain_congr kept (by omega : measure after ≤ bound) (Nat.le_refl _)
  rw [same]
  simp only [drain, step, rest]

/-- Draining that succeeds leaves no task. -/
theorem next_eq_none (exhausting : Exhausting next P measure) {bound : Nat} {state last : σ} {count : Nat}
    (holds : P state) (enough : measure state ≤ bound) (drained : drain next bound state = (last, .ok count)) :
    next last = none := by
  induction bound generalizing state count with
  | zero =>
    cases step : next state with
    | none =>
      cases drained
      exact step
    | some taken =>
      have lower := exhausting.lowers holds step
      omega
  | succ bound ih =>
    cases step : next state with
    | none =>
      rw [drain_of_none step] at drained
      cases drained
      exact step
    | some taken =>
      obtain ⟨after, result⟩ := taken
      have lower := exhausting.lowers holds step
      have kept := exhausting.keeps holds step
      cases result with
      | error e => simp [drain, step] at drained
      | ok =>
        obtain ⟨final, ended⟩ : ∃ final, drain next bound after = final := ⟨_, rfl⟩
        obtain ⟨final, e | number⟩ := final
        · simp [drain, step, ended, Except.map] at drained
        · simp only [drain, step, ended, Prod.mk.injEq] at drained
          obtain ⟨rfl, -⟩ := drained
          exact ih kept (by omega) ended

end Exhausting

/-- What every task keeps is kept by draining. -/
theorem drain_keeps (keeps : ∀ {state after : σ} {result : Except ε Unit}, P state →
    next state = some (after, result) → P after) (bound : Nat) {state : σ} (holds : P state) :
    P (drain next bound state).1 := by
  induction bound generalizing state with
  | zero => exact holds
  | succ bound ih =>
    cases step : next state with
    | none =>
      rw [drain_of_none step]
      exact holds
    | some taken =>
      obtain ⟨after, result⟩ := taken
      have kept := keeps holds step
      cases result with
      | error e => simpa only [drain, step] using kept
      | ok => simpa only [drain, step] using ih kept

end NestedCss
