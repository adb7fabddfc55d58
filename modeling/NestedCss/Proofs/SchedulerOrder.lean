import NestedCss.Proofs.EmitterSteps

namespace NestedCss

namespace Scheduler
variable {s : Scheduler}

/-- A flush is asked for only while text waits. That text came in during a flush is remembered exactly
as long as the flush is under way and that text waits. -/
structure Orderly (s : Scheduler) : Prop where
  pending : s.phase = .pending → s.buffer ≠ ""
  dirty : s.dirty = true ↔ s.phase = .flushing ∧ s.buffer ≠ ""

theorem orderly_initial : initial.Orderly := by
  constructor <;> simp [initial]

theorem Orderly.clean (orderly : s.Orderly) (noFlush : s.phase ≠ .flushing) : s.dirty = false := by
  have dirty := mt orderly.dirty.mp
  exact Bool.eq_false_iff.mpr (dirty fun flushing => noFlush flushing.1)

theorem Orderly.submit (orderly : s.Orderly) (text : String) : (s.submit text).1.Orderly := by
  unfold Scheduler.submit
  cases phase : s.phase with
  | idle =>
    have clean := orderly.clean (by simp [phase])
    dsimp only
    split
    · exact ⟨by simp, by simp [clean]⟩
    · rename_i waits
      exact ⟨by simpa using waits, by simp [clean]⟩
  | pending =>
    have waits := orderly.pending phase
    have clean := orderly.clean (by simp [phase])
    exact ⟨by simp [waits], by simp [clean]⟩
  | flushing =>
    have late := orderly.dirty
    simp only [phase, true_and] at late
    refine ⟨by simp, ?_⟩
    simp only [true_and, Bool.or_eq_true, late]
    by_cases before : s.buffer = "" <;> simp [before]

theorem Orderly.tick (orderly : s.Orderly) : s.tick.1.Orderly := by
  unfold Scheduler.tick
  cases phase : s.phase with
  | pending =>
    have waits := orderly.pending phase
    simp only [String.isEmpty_iff, waits, if_false]
    constructor <;> simp
  | idle | flushing => exact orderly

theorem Orderly.flushed (orderly : s.Orderly) (remainder : Option String) : (s.flushed remainder).1.Orderly := by
  unfold Scheduler.flushed
  dsimp only
  split
  · rename_i late
    have waits := (orderly.dirty.mp late).2
    constructor <;> simp [waits]
  · constructor <;> simp

theorem Orderly.unscheduled (orderly : s.Orderly) : s.unscheduled.Orderly := by
  unfold Scheduler.unscheduled
  cases phase : s.phase with
  | pending =>
    have clean := orderly.clean (by simp [phase])
    constructor <;> simp [clean]
  | idle | flushing => exact orderly

/-- Also events that no host and no sink would cause keep the state in order. -/
theorem Orderly.handle (orderly : s.Orderly) (event : Event) : (s.handle event).1.Orderly := by
  cases event with
  | submit text => exact orderly.submit text
  | tick => exact orderly.tick
  | flushed remainder => exact orderly.flushed remainder
  | failed batch => constructor <;> simp [Scheduler.handle, failed]
  | unscheduled => exact orderly.unscheduled

/-- What has to be handed to the sink is never empty. -/
theorem flush_ne_empty {event : Event} {payload : String} (flush : (s.handle event).2 = some (.flush payload)) :
    payload ≠ "" := by
  cases event with
  | submit text =>
    obtain ⟨-, -, -, noFlush⟩ := s.submit_effect text
    exact absurd flush (noFlush payload)
  | tick =>
    simp only [Scheduler.handle, Scheduler.tick] at flush
    split at flush
    · split at flush
      · cases flush
      · rename_i waits
        cases flush
        exact mt String.isEmpty_iff.mpr waits
    · cases flush
  | flushed remainder =>
    obtain ⟨-, -, noFlush⟩ := s.flushed_effect remainder
    exact absurd flush (noFlush payload)
  | failed | unscheduled => cases flush

/-- A task that runs in any other phase comes too late. -/
theorem tick_of_not_pending (late : s.phase ≠ .pending) : s.handle .tick = (s, none) := by
  unfold Scheduler.handle Scheduler.tick
  cases phase : s.phase with
  | pending => exact absurd phase late
  | idle | flushing => rfl

end Scheduler

end NestedCss
