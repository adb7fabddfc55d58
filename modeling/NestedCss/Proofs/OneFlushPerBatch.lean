import NestedCss.Proofs.QueueRuns

namespace NestedCss

namespace Scene
variable {s : Scene} {index : Nat} {seat : Seat}

theorem Attended.exact (attended : s.Attended index seat) : History.Exact (s.dispatch.history index) := by
  have exact := attended.secure.sound.exact
  simpa [view, Emitter.resume, attended.settled] using exact

/-- When no sink is at work an emitter holds what its last flush left and what came in since it began. -/
theorem Attended.calm (attended : s.Attended index seat) (quiet : s.flushes = []) :
    seat.emitter.scheduler.phase ≠ .flushing ∧
      seat.emitter.scheduler.buffer = (s.dispatch.history index).left ++ (s.dispatch.history index).since := by
  have noSink : (s.view index seat).calls = [] := by simp [view, calls, quiet]
  rcases attended.secure.sound.order with calm | ⟨payload, busy⟩
  · have buffer := calm.buffer
    simp only [view, Emitter.resume, attended.settled, List.append_nil] at buffer
    exact ⟨calm.phase, buffer⟩
  · obtain ⟨rest, split, -⟩ := busy.calls
    simp [noSink] at split

/-- An emitter without a task, while no flush is under way, waits for nothing; its buffer is what its last flush
has put back. -/
theorem Attended.atRest (attended : s.Attended index seat) (live : seat.live = true) (quiet : s.flushes = [])
    (empty : s.dispatch.waiting seat.queue = []) : seat.emitter.scheduler.phase = .idle ∧
      seat.emitter.scheduler.buffer = (s.dispatch.history index).returned := by
  have owed := attended.tasks live seat.queue
  obtain ⟨noFlush, -⟩ := attended.calm quiet
  have idle : seat.emitter.scheduler.phase = .idle := by
    cases phase : seat.emitter.scheduler.phase with
    | idle => rfl
    | pending => simp [empty, Scheduler.owed, phase] at owed
    | flushing => exact absurd phase noFlush
  exact ⟨idle, attended.rest idle⟩

end Scene

/-- One flush per batch. At every scene of a run, whatever the sinks do, an emitter that is there has one
task in its queue if it waits for a flush and none otherwise, and each of its payloads is all that came
in since the flush before began, behind what that one left. The task of an emitter that is gone does
nothing and is counted, and a run goes on behind it. A run of a queue that succeeds brings its emitters to
rest, with what their last flush has put back. -/
theorem one_flush_per_batch (start : Dispatch) (fresh : start.Fresh) :
    (∀ operations, Scene.Leads ⟨start, []⟩ ⟨start.operate operations, []⟩) ∧
    (∀ s : Scene, Scene.Leads ⟨start, []⟩ s → ∀ index seat, s.dispatch.seats[index]? = some seat → seat.live = true →
      (∀ queue, (s.dispatch.waiting queue).count index =
        if queue = seat.queue ∧ seat.emitter.scheduler.phase = .pending then 1 else 0) ∧
      History.Exact (s.dispatch.history index) ∧
      (s.flushes = [] → seat.emitter.scheduler.phase ≠ .flushing ∧
        seat.emitter.scheduler.buffer = (s.dispatch.history index).left ++ (s.dispatch.history index).since ∧
        (s.dispatch.waiting seat.queue = [] → seat.emitter.scheduler.phase = .idle ∧
          seat.emitter.scheduler.buffer = (s.dispatch.history index).returned))) ∧
    (∀ s : Scene, Scene.Leads ⟨start, []⟩ s → ∀ queue index rest, s.dispatch.waiting queue = index :: rest →
      (∀ seat, s.dispatch.seats[index]? = some seat → seat.live = false) →
      Dispatch.next queue s.dispatch = some (s.dispatch.withQueue queue rest, .ok ()) ∧
      s.dispatch.runQueue queue =
        (((s.dispatch.withQueue queue rest).runQueue queue).1,
          ((s.dispatch.withQueue queue rest).runQueue queue).2.map (· + 1))) ∧
    (∀ operations queue last count, (start.operate operations).runQueue queue = (last, .ok count) →
      last.waiting queue = [] ∧
      ∀ index seat, last.seats[index]? = some seat → seat.live = true → seat.queue = queue →
        seat.emitter.scheduler.phase = .idle ∧ seat.emitter.scheduler.buffer = (last.history index).returned) := by
  have runs : ∀ operations, Scene.Leads ⟨start, []⟩ ⟨start.operate operations, []⟩ :=
    Dispatch.leads_operate fresh.tended
  refine ⟨runs, ?_, ?_, ?_⟩
  · intro s leads index seat present live
    have attended := fresh.tended.leads leads index seat present
    refine ⟨fun queue => ?_, attended.exact, fun quiet => ?_⟩
    · rw [attended.tasks live queue]
      by_cases own : queue = seat.queue <;> simp [own, Scheduler.owed]
    · obtain ⟨noFlush, buffer⟩ := attended.calm quiet
      exact ⟨noFlush, buffer, attended.atRest live quiet⟩
  · intro s leads queue index rest first gone
    exact ⟨Dispatch.next_of_gone first gone, Dispatch.runQueue_of_gone (fresh.tended.leads leads) first gone⟩
  · intro operations queue last count ran
    have tended := fresh.tended.leads (runs operations)
    have ended : (Scene.mk last []).Tended := by
      have leads := tended.leads_runQueue queue
      rw [ran] at leads
      exact tended.leads leads
    have empty := Dispatch.waiting_of_runQueue tended ran
    refine ⟨empty, fun index seat present live own => ?_⟩
    exact (ended index seat present).atRest live rfl (own ▸ empty)

/-- Three emitters that share a queue. The first sink submits something and fails, the second leaves a
remainder. -/
def Dispatch.three : Dispatch where
  seats := [[⟨["x"], some "down", none⟩], [⟨[], none, some "r"⟩], []].map fun responses =>
    ⟨⟨.initial, [], .queue, responses, true, []⟩, 0, true⟩
  queues := [[]]
  journal := []

theorem Dispatch.three_fresh : Dispatch.three.Fresh := by
  refine ⟨by simp [three], fun queue => ?_, rfl⟩
  cases queue <;> rfl

/-- The third emitter is dropped before the first flush fails; the run that follows finds the other two
tasks. -/
theorem one_flush_per_batch_failed : ∃ operations,
    (Dispatch.three.operate operations).waiting 0 = [1, 2] ∧
      ((Dispatch.three.operate operations).runQueue 0).2 = .ok 2 ∧
      (((Dispatch.three.operate operations).runQueue 0).1.history 1).payloads = ["b"] ∧
      ∀ seat, ((Dispatch.three.operate operations).runQueue 0).1.seats[0]? = some seat →
        seat.emitter.scheduler.phase = .idle ∧ seat.emitter.scheduler.buffer = "ax" := by
  refine ⟨[.submit 0 "a", .submit 1 "b", .submit 2 "c", .drop 2, .run 0], rfl, rfl, rfl, fun seat present => ?_⟩
  obtain ⟨-, -, -, runs⟩ := one_flush_per_batch Dispatch.three Dispatch.three_fresh
  obtain ⟨-, atRest⟩ := runs [.submit 0 "a", .submit 1 "b", .submit 2 "c", .drop 2, .run 0] 0 _ 2 rfl
  have live : Option.map Seat.live (some seat) = some true := by
    rw [← present]
    rfl
  have own : Option.map Seat.queue (some seat) = some 0 := by
    rw [← present]
    rfl
  exact atRest 0 seat present (Option.some.inj live) (Option.some.inj own)

end NestedCss
