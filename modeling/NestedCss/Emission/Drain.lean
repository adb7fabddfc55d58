namespace NestedCss

variable {σ ε : Type}

/-- Takes and runs first tasks, at most `bound` of them, until none waits or one fails; tasks may put further ones
into the queue while they run. `next` gives the state after the first task and its result, or nothing if no task
waits. The result is the number of tasks, or the error of the task that failed. -/
def drain (next : σ → Option (σ × Except ε Unit)) : Nat → σ → σ × Except ε Nat
  | 0, state => (state, .ok 0)
  | bound + 1, state =>
    match next state with
    | none => (state, .ok 0)
    | some (after, .error e) => (after, .error e)
    | some (after, .ok ()) =>
      let (last, result) := drain next bound after
      (last, result.map (· + 1))

/-- Where no task waits nothing is done. -/
theorem drain_of_none {next : σ → Option (σ × Except ε Unit)} {state : σ} (empty : next state = none)
    (bound : Nat) : drain next bound state = (state, .ok 0) := by
  cases bound <;> simp [drain, empty]

end NestedCss
