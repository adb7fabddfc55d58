import Mathlib.Data.List.Induction
import Mathlib.Data.List.Infix
import NestedCss.Proofs.SchedulerOrder

namespace NestedCss.Scheduler

variable {s : Scheduler}

/-- The state that events lead to from the start. -/
def run (events : List Event) : Scheduler :=
  events.foldl (fun s event => (s.handle event).1) initial

theorem run_snoc (events : List Event) (event : Event) :
    run (events ++ [event]) = ((run events).handle event).1 := by
  simp only [run, List.foldl_append, List.foldl_cons, List.foldl_nil]

/-- The state stays in order, whatever events come and in whatever order. -/
theorem orderly_run (events : List Event) : (run events).Orderly := by
  induction events using List.reverseRecOn with
  | nil => exact orderly_initial
  | append_singleton events event ih =>
    rw [run_snoc]
    exact ih.handle event

/-- A task that runs in the pending phase always finds text. -/
theorem Orderly.tick_of_pending (orderly : s.Orderly) (pending : s.phase = .pending) :
    s.handle .tick = (⟨"", .flushing, false⟩, some (.flush s.buffer)) := by
  have waits := orderly.pending pending
  simp only [Scheduler.handle, Scheduler.tick, pending, String.isEmpty_iff, waits, if_false]

/-- A flush is asked for exactly on the way into the pending phase. -/
theorem Orderly.schedule_iff (orderly : s.Orderly) (event : Event) :
    (s.handle event).2 = some .schedule ↔ s.phase ≠ .pending ∧ (s.handle event).1.phase = .pending := by
  cases event with
  | submit text =>
    cases phase : s.phase with
    | idle =>
      simp only [Scheduler.handle, Scheduler.submit, phase]
      split <;> simp
    | pending | flushing => simp [Scheduler.handle, Scheduler.submit, phase]
  | tick =>
    cases phase : s.phase with
    | pending => simp [orderly.tick_of_pending phase]
    | idle | flushing => simp [Scheduler.handle, Scheduler.tick, phase]
  | flushed remainder =>
    simp only [Scheduler.handle, Scheduler.flushed]
    split
    · -- text is remembered only while a flush is under way, so the pending phase is entered from there
      rename_i late
      simp [(orderly.dirty.mp late).1]
    · simp
  | failed batch => simp [Scheduler.handle, failed]
  | unscheduled => cases phase : s.phase <;> simp [Scheduler.handle, Scheduler.unscheduled, phase]

/-- A flush begins exactly with a task that runs in the pending phase, and takes the whole buffer. -/
theorem Orderly.flush_iff (orderly : s.Orderly) (event : Event) (payload : String) :
    (s.handle event).2 = some (.flush payload) ↔ event = .tick ∧ s.phase = .pending ∧ payload = s.buffer := by
  cases event with
  | tick =>
    by_cases phase : s.phase = .pending
    · simp [orderly.tick_of_pending phase, phase, eq_comm]
    · simp [tick_of_not_pending phase, phase]
  | submit text =>
    obtain ⟨-, -, -, noFlush⟩ := s.submit_effect text
    simp [noFlush]
  | flushed remainder =>
    obtain ⟨-, -, noFlush⟩ := s.flushed_effect remainder
    simp [noFlush]
  | failed | unscheduled => simp [Scheduler.handle]

/-- The flushing phase is entered only from the pending phase, by a task. -/
theorem entered_flushing {event : Event} (before : s.phase ≠ .flushing)
    (after : (s.handle event).1.phase = .flushing) : event = .tick ∧ s.phase = .pending := by
  cases event with
  | submit text =>
    obtain ⟨-, phase, -, -⟩ := s.submit_effect text
    exact absurd (phase.mp after) before
  | tick =>
    refine ⟨rfl, Decidable.byContradiction fun late => before ?_⟩
    rwa [tick_of_not_pending late] at after
  | flushed remainder =>
    obtain ⟨-, phase, -⟩ := s.flushed_effect remainder
    exact absurd after phase
  | failed batch => cases after
  | unscheduled =>
    obtain ⟨-, phase⟩ := s.unscheduled_effect
    exact absurd (phase.mp after) before

/-- While a flush goes on, only text that comes in is remembered. -/
theorem dirty_of_flushing {event : Event} (before : s.phase = .flushing)
    (after : (s.handle event).1.phase = .flushing) :
    (s.handle event).1.dirty = true ↔ s.dirty = true ∨ ∃ text, event = .submit text ∧ text ≠ "" := by
  cases event with
  | submit text => simp [handle, Scheduler.submit, before]
  | tick => simp [handle, Scheduler.tick, before]
  | flushed remainder =>
    obtain ⟨-, phase, -⟩ := s.flushed_effect remainder
    exact absurd after phase
  | failed batch => cases after
  | unscheduled => simp [handle, Scheduler.unscheduled, before]

/-- A task that ran behind the earlier events has begun a flush, and what came since then has not ended
it. -/
structure Underway (earlier since : List Event) : Prop where
  due : (run earlier).phase = .pending
  goesOn : ∀ part, part <+: since → (run (earlier ++ .tick :: part)).phase = .flushing

theorem Underway.of_snoc {earlier since : List Event} {event : Event}
    (underway : Underway earlier (since ++ [event])) : Underway earlier since :=
  ⟨underway.due, fun part start => underway.goesOn part (start.trans (List.prefix_append ..))⟩

/-- A flush that is under way was begun by some task, and has not ended since. -/
theorem exists_underway {events : List Event} (flushing : (run events).phase = .flushing) :
    ∃ earlier since, events = earlier ++ .tick :: since ∧ Underway earlier since := by
  induction events using List.reverseRecOn with
  | nil => cases flushing
  | append_singleton events event ih =>
    by_cases before : (run events).phase = .flushing
    · obtain ⟨earlier, since, rfl, underway⟩ := ih before
      refine ⟨earlier, since ++ [event], by simp, underway.due, fun part start => ?_⟩
      rcases List.prefix_concat_iff.mp start with rfl | inside
      · simpa using flushing
      · exact underway.goesOn part inside
    · -- the last event has begun the flush, and nothing came since then
      have flushes := flushing
      rw [run_snoc] at flushing
      obtain ⟨rfl, pending⟩ := entered_flushing before flushing
      refine ⟨events, [], rfl, pending, fun part start => ?_⟩
      obtain rfl := List.prefix_nil.mp start
      exact flushes

/-- What came in during a flush is remembered exactly if it held some text. The induction is on the events
since the flush began. -/
theorem Underway.dirty_iff {earlier since : List Event} (underway : Underway earlier since) :
    (run (earlier ++ .tick :: since)).dirty = true ↔ ∃ text, .submit text ∈ since ∧ text ≠ "" := by
  induction since using List.reverseRecOn with
  | nil =>
    have begun := (orderly_run earlier).tick_of_pending underway.due
    simp [run_snoc, begun]
  | append_singleton since event ih =>
    have sofar := underway.of_snoc
    have before := sofar.goesOn since List.prefix_rfl
    have after := underway.goesOn (since ++ [event]) List.prefix_rfl
    rw [← List.cons_append, ← List.append_assoc, run_snoc] at after ⊢
    rw [dirty_of_flushing before after, ih sofar]
    simp only [List.mem_append, List.mem_singleton, or_and_right, exists_or, eq_comm]

/-- When a flush ends another one is asked for exactly if text came in meanwhile. -/
theorem flushed_schedule_iff (remainder : Option String) :
    (s.handle (.flushed remainder)).2 = some .schedule ↔ s.dirty = true := by
  simp only [handle, flushed]
  split <;> simp_all

/-- Whatever happens to a scheduler, it is in order. That text came in is remembered only while a flush is
under way and that text waits. Where a flush is pending there is text, and the task that then runs takes
all of it. A flush is asked for by just those events that enter the pending phase, and begun by just those
tasks that run in it. When the sink has consumed its batch, another flush is asked for exactly if some text
was submitted since the task that began this one, whatever the sink has left. -/
theorem every_run_is_orderly (events : List Event) :
    ((run events).dirty = true → (run events).phase = .flushing ∧ (run events).buffer ≠ "") ∧
    ((run events).phase = .pending → (run events).buffer ≠ "" ∧
      (run events).handle .tick = (⟨"", .flushing, false⟩, some (.flush (run events).buffer))) ∧
    (∀ event, ((run events).handle event).2 = some .schedule ↔
      (run events).phase ≠ .pending ∧ (run (events ++ [event])).phase = .pending) ∧
    (∀ event payload, ((run events).handle event).2 = some (.flush payload) ↔
      event = .tick ∧ (run events).phase = .pending ∧ payload = (run events).buffer) ∧
    ((run events).phase = .flushing → ∃ earlier since, events = earlier ++ .tick :: since ∧ Underway earlier since) ∧
    (∀ earlier since, events = earlier ++ .tick :: since → Underway earlier since → ∀ remainder,
      ((run events).handle (.flushed remainder)).2 = some .schedule ↔ ∃ text, .submit text ∈ since ∧ text ≠ "") := by
  have orderly := orderly_run events
  refine ⟨orderly.dirty.mp, fun pending => ⟨orderly.pending pending, orderly.tick_of_pending pending⟩, fun event => ?_,
    orderly.flush_iff, exists_underway, ?_⟩
  · rw [run_snoc]
    exact orderly.schedule_iff event
  · rintro earlier since rfl underway remainder
    rw [flushed_schedule_iff, underway.dirty_iff]

/-- In the course of a flush a late task runs, a refusal is reported and nothing is submitted, so that a
remainder asks for nothing; then text comes in. -/
theorem every_run_is_orderly_meanwhile :
    let earlier : List Event := [.flushed (some "a"), .submit ""]
    let since : List Event := [.tick, .unscheduled, .submit ""]
    Underway earlier since ∧ Underway earlier (since ++ [.submit "b"]) ∧
      ((run (earlier ++ .tick :: since)).handle (.flushed (some "r"))).2 ≠ some .schedule ∧
      ((run (earlier ++ .tick :: (since ++ [.submit "b"]))).handle (.flushed none)).2 = some .schedule := by
  intro earlier since
  have goesOn : ∀ part ∈ (since ++ [Event.submit "b"]).inits, (run (earlier ++ .tick :: part)).phase = .flushing := by decide
  have late : Underway earlier (since ++ [.submit "b"]) :=
    ⟨by decide, fun part start => goesOn part ((List.mem_inits ..).mpr start)⟩
  obtain ⟨-, -, -, -, -, alone⟩ := every_run_is_orderly (earlier ++ .tick :: since)
  obtain ⟨-, -, -, -, -, together⟩ := every_run_is_orderly (earlier ++ .tick :: (since ++ [.submit "b"]))
  refine ⟨late.of_snoc, late, ?_, ?_⟩
  · rw [ne_eq, alone earlier since rfl late.of_snoc]
    simp [since]
  · exact (together earlier _ rfl late none).mpr ⟨"b", by simp, by decide⟩

end NestedCss.Scheduler
