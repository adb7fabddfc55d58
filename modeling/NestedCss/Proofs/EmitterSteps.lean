import NestedCss.Emission.Emitter

namespace NestedCss

namespace Scheduler

/-- Text that comes in goes to the end of the buffer. It starts no flush and ends none, and during a flush nothing
is asked for. -/
theorem submit_effect (s : Scheduler) (text : String) :
    (s.handle (.submit text)).1.buffer = s.buffer ++ text ∧
      ((s.handle (.submit text)).1.phase = .flushing ↔ s.phase = .flushing) ∧
      (s.phase = .flushing → (s.handle (.submit text)).2 = none) ∧
      ∀ payload, (s.handle (.submit text)).2 ≠ some (.flush payload) := by
  obtain ⟨buffer, phase, dirty⟩ := s
  cases phase with
  | idle =>
    simp only [handle, submit]
    split <;> simp
  | pending => simp [handle, submit]
  | flushing => simp [handle, submit]

/-- A task starts a flush of the whole buffer in the pending phase; otherwise the buffer stays. -/
theorem tick_effect (s : Scheduler) :
    (s.phase = .pending ∧ s.handle .tick = (⟨"", .flushing, false⟩, some (.flush s.buffer))) ∨
      ((s.handle .tick).2 = none ∧ (s.handle .tick).1.buffer = s.buffer ∧
        ((s.handle .tick).1.phase = .flushing ↔ s.phase = .flushing)) := by
  obtain ⟨buffer, phase, dirty⟩ := s
  cases phase with
  | pending =>
    by_cases empty : buffer.isEmpty
    · exact .inr (by simp [handle, tick, empty])
    · exact .inl (by simp [handle, tick, empty])
  | idle => exact .inr (by simp [handle, tick])
  | flushing => exact .inr (by simp [handle, tick])

/-- When a flush has ended the sink is not at work, and the buffer is the remainder with what came in since. -/
theorem flushed_effect (s : Scheduler) (remainder : Option String) :
    (s.handle (.flushed remainder)).1.buffer = remainder.getD "" ++ s.buffer ∧
      (s.handle (.flushed remainder)).1.phase ≠ .flushing ∧
      ∀ payload, (s.handle (.flushed remainder)).2 ≠ some (.flush payload) := by
  simp only [handle, flushed]
  split <;> simp

/-- A refused request leaves the buffer and a flush under way as they are. -/
theorem unscheduled_effect (s : Scheduler) :
    s.unscheduled.buffer = s.buffer ∧ (s.unscheduled.phase = .flushing ↔ s.phase = .flushing) := by
  obtain ⟨buffer, phase, dirty⟩ := s
  cases phase <;> simp [unscheduled]

end Scheduler

/-- How the sink ends the flush of a payload. -/
def Response.ending (response : Response) (payload : String) : Occurrence :=
  match response.failure with
  | some reason => .failed payload reason
  | none => .finished payload response.remainder

/-- What the sink submits meanwhile, if it can reach the emitter. -/
def Response.reaching (response : Response) (attached : Bool) : List Occurrence :=
  if attached then response.submissions.map .submitted else []

namespace Emitter

/-- Asks the host if a flush is wanted. -/
def heed (ask : Activity) : Emitter × Option Action → Emitter × Except DeliveryError Unit
  | (e, some .schedule) => ask e
  | (e, _) => (e, .ok ())

theorem submitWith_eq (ask : Activity) (text : String) (e : Emitter) :
    submitWith ask text e = heed ask ((e.note (.submitted text)).apply (.submit text)) := rfl

theorem takeDecision_eq (e : Emitter) : e.takeDecision.2 = { e with decisions := e.decisions.tail } := by
  obtain ⟨scheduler, _ | ⟨decision, decisions⟩, fallback, responses, attached, journal⟩ := e <;> rfl

theorem takeResponse_eq (e : Emitter) :
    e.takeResponse = (e.responses.headD .plain, { e with responses := e.responses.tail }) := by
  obtain ⟨scheduler, decisions, fallback, _ | ⟨response, responses⟩, attached, journal⟩ := e <;> rfl

/-- The emitter when the sink has been handed a payload and has submitted all that it does. -/
def served (ask : Activity) (payload : String) (e : Emitter) : Emitter :=
  if e.attached then
    submitAll ask (e.responses.headD .plain).submissions { e.note (.started payload) with responses := e.responses.tail }
  else { e.note (.started payload) with responses := e.responses.tail }

theorem deliverWith_eq (ask : Activity) (payload : String) (e : Emitter) :
    deliverWith ask payload e =
      match (e.responses.headD .plain).failure with
      | some reason =>
        ((((served ask payload e).note (.failed payload reason)).apply (.failed payload)).1, .error (.sink reason))
      | none => heed ask (((served ask payload e).note (.finished payload (e.responses.headD .plain).remainder)).apply
          (.flushed (e.responses.headD .plain).remainder)) := by
  unfold deliverWith
  rw [takeResponse_eq]
  rfl

/-- Text that comes in while the sink is at work waits for the end of the flush. -/
theorem submitWith_flushing (ask : Activity) (text : String) (e : Emitter) (flushing : e.scheduler.phase = .flushing) :
    submitWith ask text e =
      ({ e.note (.submitted text) with scheduler := (e.scheduler.handle (.submit text)).1 }, .ok ()) := by
  obtain ⟨-, -, quiet, -⟩ := Scheduler.submit_effect e.scheduler text
  rw [submitWith_eq]
  simp only [apply, note, quiet flushing, heed]

theorem submitAll_cons (ask : Activity) (text : String) (rest : List String) (e : Emitter) :
    submitAll ask (text :: rest) e = submitAll ask rest (submitWith ask text e).1 := rfl

/-- All that the sink submits during its flush is noted and waits; only the scheduler changes otherwise. -/
theorem submitAll_flushing (ask : Activity) (texts : List String) (e : Emitter)
    (flushing : e.scheduler.phase = .flushing) : ∃ scheduler : Scheduler, scheduler.phase = .flushing ∧
      submitAll ask texts e = { e with scheduler, journal := e.journal ++ texts.map .submitted } := by
  induction texts generalizing e with
  | nil => exact ⟨e.scheduler, flushing, by simp [submitAll]⟩
  | cons text rest ih =>
    obtain ⟨-, phase, -, -⟩ := Scheduler.submit_effect e.scheduler text
    obtain ⟨scheduler, after, rest_eq⟩ :=
      ih { e.note (.submitted text) with scheduler := (e.scheduler.handle (.submit text)).1 } (phase.mpr flushing)
    refine ⟨scheduler, after, ?_⟩
    rw [submitAll_cons, submitWith_flushing ask text e flushing, rest_eq]
    simp [note]

theorem served_flushing (ask : Activity) (payload : String) (e : Emitter) (flushing : e.scheduler.phase = .flushing) :
    ∃ scheduler : Scheduler, scheduler.phase = .flushing ∧
      served ask payload e = { e with
        scheduler, responses := e.responses.tail,
        journal := e.journal ++ .started payload :: (e.responses.headD .plain).reaching e.attached } := by
  cases reaches : e.attached with
  | true =>
    obtain ⟨scheduler, after, same⟩ := submitAll_flushing ask (e.responses.headD .plain).submissions
      { e.note (.started payload) with responses := e.responses.tail } flushing
    exact ⟨scheduler, after, by simpa [served, Response.reaching, reaches, note] using same⟩
  | false => exact ⟨e.scheduler, flushing, by simp [served, Response.reaching, reaches, note]⟩

/-- A task hands a payload to the sink, or does nothing at all. -/
theorem runTaskWith_cases (ask : Activity) (e : Emitter) :
    (∃ payload, (e.apply .tick).2 = some (.flush payload) ∧ (e.apply .tick).1.scheduler.phase = .flushing ∧
        runTaskWith ask e = deliverWith ask payload (e.apply .tick).1) ∨
      ((e.apply .tick).2 = none ∧ runTaskWith ask e = ((e.apply .tick).1, .ok ())) := by
  rcases Scheduler.tick_effect e.scheduler with ⟨-, ticked⟩ | ⟨quiet, -⟩
  · refine .inl ⟨e.scheduler.buffer, ?_⟩
    simp only [runTaskWith, apply, ticked, and_self]
  · exact .inr ⟨quiet, by simp only [runTaskWith, apply, quiet]⟩

/-- The host places the task of a request and then reports; a request that it reports a failure of is refused. -/
theorem request_cases (depth : Nat) (e : Emitter) : ∃ placement,
    (request (depth + 1) e).1 = (place (request depth) placement { e with decisions := e.decisions.tail }).1 ∨
      (request (depth + 1) e).1 =
        (place (request depth) placement { e with decisions := e.decisions.tail }).1.refuse := by
  refine ⟨e.takeDecision.1.placement, ?_⟩
  rw [← takeDecision_eq]
  simp only [request]
  cases e.takeDecision.1.verdict (place (request depth) e.takeDecision.1.placement e.takeDecision.2).2 with
  | error reason => exact .inr rfl
  | ok => exact .inl rfl

end Emitter

end NestedCss
