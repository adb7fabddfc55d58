import NestedCss.Proofs.QueueScenes

namespace NestedCss

namespace Scheduler
variable (s : Scheduler)

/-- The number of tasks that are to wait. -/
def owed : Nat := if s.phase = .pending then 1 else 0

/-- The number of tasks that are asked for. -/
def requested : Option Action → Nat
  | some .schedule => 1
  | _ => 0

/-- A submission asks for a task exactly when the scheduler goes over to wait for one. -/
theorem owed_submit (text : String) :
    (s.handle (.submit text)).1.owed = s.owed + requested (s.handle (.submit text)).2 := by
  unfold Scheduler.handle Scheduler.submit
  cases phase : s.phase with
  | idle =>
    dsimp only
    split <;> simp [owed, requested, phase]
  | pending | flushing => simp [owed, requested, phase]

theorem owed_tick : s.tick.1.owed = 0 ∧ requested s.tick.2 = 0 := by
  unfold Scheduler.tick
  cases phase : s.phase with
  | pending =>
    dsimp only
    split <;> simp [owed, requested]
  | idle | flushing => simp [owed, requested, phase]

/-- A flush that has ended asks for a task exactly when the scheduler waits for one again. -/
theorem owed_flushed (remainder : Option String) :
    (s.flushed remainder).1.owed = requested (s.flushed remainder).2 := by
  unfold Scheduler.flushed
  dsimp only
  split <;> simp [owed, requested]

theorem owed_le : s.owed ≤ 1 := by
  unfold owed
  split <;> omega

/-- A task does not bring a scheduler to rest that was not at rest before. -/
theorem Orderly.tick_of_idle {s : Scheduler} (orderly : s.Orderly) (idle : s.tick.1.phase = .idle) : s.tick.1 = s := by
  by_cases pending : s.phase = .pending
  · have waits := orderly.pending pending
    simp [Scheduler.tick, pending, waits] at idle
  · exact congrArg Prod.fst (tick_of_not_pending pending)

/-- The buffer of a scheduler that comes to rest when the sink has consumed a batch. -/
theorem Orderly.buffer_of_flushed {s : Scheduler} (orderly : s.Orderly) (flushing : s.phase = .flushing)
    {remainder : Option String} (idle : (s.flushed remainder).1.phase = .idle) :
    (s.flushed remainder).1.buffer = remainder.getD "" := by
  have late := orderly.dirty
  unfold Scheduler.flushed at idle ⊢
  dsimp only at idle ⊢
  split at idle
  · cases idle
  · rename_i clean
    rw [if_neg clean]
    rw [late] at clean
    have nothing : s.buffer = "" := by
      by_contra waits
      exact clean ⟨flushing, waits⟩
    simp [nothing]

/-- At rest a scheduler takes only empty text, and only with an empty buffer. -/
theorem buffer_of_submit_idle {text : String} (idle : (s.handle (.submit text)).1.phase = .idle) :
    s.phase = .idle ∧ (s.handle (.submit text)).1.buffer = s.buffer := by
  unfold Scheduler.handle Scheduler.submit at idle ⊢
  cases phase : s.phase with
  | idle =>
    simp only [phase] at idle ⊢
    split at idle
    · rename_i empty
      rw [if_pos empty]
      have nothing : s.buffer = "" ∧ text = "" := by simpa using empty
      simp [nothing]
    · cases idle
  | pending | flushing => simp [phase] at idle

end Scheduler

namespace History

/-- What the last flush put back into the buffer: the remainder, or its payload with the texts that were
submitted meanwhile if the sink has failed. -/
def returned (history : History) : String :=
  let ended : History := history.rdropWhile fun occurrence => occurrence.ending?.isNone
  match ended.getLast? with
  | some (.finished _ remainder) => remainder.getD ""
  | some (.failed payload _) => payload ++ ended.since
  | _ => ""

/-- What the last flush put back changes only where a flush ends. -/
theorem returned_snoc (history : History) {occurrence : Occurrence} (goesOn : occurrence.ending? = none) :
    returned (history ++ [occurrence]) = history.returned := by
  simp only [returned]
  rw [List.rdropWhile_concat_pos _ _ _ (by simp [goesOn])]

theorem returned_snoc_finished (history : History) (payload : String) (remainder : Option String) :
    returned (history ++ [.finished payload remainder]) = remainder.getD "" := by
  simp only [returned]
  rw [List.rdropWhile_concat_neg _ _ _ (by simp [Occurrence.ending?])]
  simp

theorem returned_snoc_failed (history : History) (payload reason : String) :
    returned (history ++ [.failed payload reason]) = payload ++ history.since := by
  simp only [returned]
  rw [List.rdropWhile_concat_neg _ _ _ (by simp [Occurrence.ending?])]
  have since_ended := since_snoc history (show (Occurrence.failed payload reason).payload? = none from rfl)
  simpa [Occurrence.submission?] using since_ended

end History

namespace Scene
open Scheduler (requested)

/-- What is known of an emitter in a scene. -/
structure Attended (s : Scene) (index : Nat) (seat : Seat) : Prop where
  known : seat.queue < s.dispatch.queues.length
  hosted : seat.emitter.decisions = [] ∧ seat.emitter.fallback = .queue
  settled : seat.emitter.journal = []
  secure : (s.view index seat).Secure
  tasks : seat.live = true → ∀ queue, (s.dispatch.waiting queue).count index =
    if queue = seat.queue then seat.emitter.scheduler.owed else 0
  rest : seat.emitter.scheduler.phase = .idle →
    seat.emitter.scheduler.buffer = (s.dispatch.history index).returned

def Tended (s : Scene) : Prop :=
  ∀ index seat, s.dispatch.seats[index]? = some seat → s.Attended index seat

variable {s s' : Scene} {d : Dispatch} {flushes : List (Nat × String)} {index : Nat} {seat : Seat}

theorem Attended.orderly (attended : s.Attended index seat) : seat.emitter.scheduler.Orderly :=
  attended.secure.orderly

/-- What does not touch an emitter, nor its tasks, leaves it attended. -/
theorem Attended.spared (attended : s.Attended index seat)
    (known : s'.dispatch.queues.length = s.dispatch.queues.length)
    (history : s'.dispatch.history index = s.dispatch.history index)
    (calls : calls index s'.flushes = calls index s.flushes)
    (tasks : seat.live = true → ∀ queue,
      (s'.dispatch.waiting queue).count index = (s.dispatch.waiting queue).count index) :
    s'.Attended index seat where
  known := known ▸ attended.known
  hosted := attended.hosted
  settled := attended.settled
  secure := by
    have same : s'.view index seat = s.view index seat := by simp only [view, history, calls]
    exact same ▸ attended.secure
  tasks live queue := (tasks live queue).trans (attended.tasks live queue)
  rest idle := history ▸ attended.rest idle

theorem history_after (asked : Emitter × Option Action) : (after d flushes index seat asked).dispatch.history index =
    d.history index ++ (Emitter.carryOut asked).journal := by
  simp [after, Dispatch.history_settle]

theorem returned_carryOut (history : History) (asked : Emitter × Option Action) :
    History.returned (history ++ (Emitter.carryOut asked).journal) = History.returned (history ++ asked.1.journal) := by
  obtain ⟨e, _ | _ | payload⟩ := asked
  · rfl
  · have same := History.returned_snoc (history ++ e.journal) (show Occurrence.queued.ending? = none from rfl)
    rwa [List.append_assoc] at same
  · have goesOn : (Occurrence.started payload).ending? = none := rfl
    have same := History.returned_snoc (history ++ e.journal) goesOn
    rwa [List.append_assoc] at same

theorem count_carryOut (asked : Emitter × Option Action) :
    (Emitter.carryOut asked).journal.count .queued = asked.1.journal.count .queued + requested asked.2 := by
  obtain ⟨e, _ | _ | payload⟩ := asked <;> simp [Emitter.carryOut, Emitter.note, requested]

/-- An emitter that was asked for something is attended after it. -/
theorem attended_after {asked : Emitter × Option Action} {m : Moment} (known : seat.queue < d.queues.length)
    (hosted : asked.1.decisions = [] ∧ asked.1.fallback = .queue) (secure : m.Secure)
    (leads : Moment.Leads m (Moment.begin (asked.1.resume (d.history index), asked.2) (calls index flushes)))
    (unqueued : asked.1.journal.count .queued = 0)
    (tasks : seat.live = true → ∀ queue,
      (d.waiting queue).count index + (if queue = seat.queue then requested asked.2 else 0) =
      if queue = seat.queue then asked.1.scheduler.owed else 0)
    (rest : asked.1.scheduler.phase = .idle →
      asked.1.scheduler.buffer = History.returned (d.history index ++ asked.1.journal)) :
    (after d flushes index seat asked).Attended index
      { seat with emitter := { Emitter.carryOut asked with journal := [] } } where
  known := by simpa [after, Dispatch.settle] using known
  hosted := by simpa using hosted
  settled := rfl
  secure := by
    have same : (after d flushes index seat asked).view index
        { seat with emitter := { Emitter.carryOut asked with journal := [] } } =
        ⟨(Emitter.carryOut asked).resume (d.history index), calls index (entered index asked.2 ++ flushes)⟩ := by
      simp only [view, history_after, Emitter.resume, List.append_nil]
      rfl
    rw [same]
    exact secure.leads (leads.trans (leads_carryOut _ index asked flushes))
  tasks live queue := by
    have owed := tasks live queue
    simp only [after, d.waiting_settle known, List.count_append, count_carryOut, unqueued, Emitter.carryOut_scheduler]
    split <;> simp_all
  rest idle := by
    rw [history_after, returned_carryOut]
    simp only [Emitter.carryOut_scheduler] at idle ⊢
    exact rest idle

/-- Being asked for something leaves the other emitters as they are. -/
theorem Tended.after {asked : Emitter × Option Action} (present : d.seats[index]? = some seat)
    (known : seat.queue < d.queues.length)
    (others : ∀ other seat', other ≠ index → d.seats[other]? = some seat' → Attended ⟨d, flushes⟩ other seat')
    (own : (after d flushes index seat asked).Attended index
      { seat with emitter := { Emitter.carryOut asked with journal := [] } }) :
    (Scene.after d flushes index seat asked).Tended := by
  intro other seat' present'
  simp only [Scene.after, d.seats_settle present] at present'
  by_cases same : other = index
  · subst same
    rw [if_pos rfl] at present'
    cases present'
    exact own
  · rw [if_neg same] at present'
    have attended := others other seat' same present'
    refine attended.spared (by simp [Scene.after, Dispatch.settle]) ?_ ?_ ?_
    · simp [Scene.after, d.history_settle, same]
    · obtain ⟨e, _ | _ | payload⟩ := asked <;> simp [Scene.after, entered, calls, Ne.symm same]
    · intro _ queue
      simp only [Scene.after, d.waiting_settle known, List.count_append]
      split <;> simp [List.count_replicate, Ne.symm same]

/-- A submission keeps every emitter attended, whether its task is queued or not. -/
theorem Tended.submit (tended : Tended ⟨d, flushes⟩) (present : d.seats[index]? = some seat) (text : String) :
    (Scene.after d flushes index seat ((seat.emitter.note (.submitted text)).apply (.submit text))).Tended := by
  have attended := tended index seat present
  refine .after present attended.known (fun other seat' _ present' => tended other seat' present') ?_
  refine attended_after attended.known attended.hosted attended.secure ?_ ?_ ?_ ?_
  · rw [seat.emitter.resume_event]
    exact .single (.submit _ _ text)
  · simp [Emitter.apply, Emitter.note, attended.settled]
  · intro live queue
    have owed := attended.tasks live queue
    have counted := seat.emitter.scheduler.owed_submit text
    simp only [Emitter.apply, Emitter.note]
    rw [owed, counted]
    split <;> rfl
  · intro idle
    obtain ⟨before, same⟩ := seat.emitter.scheduler.buffer_of_submit_idle idle
    have returned := History.returned_snoc (d.history index) (show (Occurrence.submitted text).ending? = none from rfl)
    simp only [Emitter.apply, Emitter.note, attended.settled, List.nil_append] at same ⊢
    rw [same, returned]
    exact attended.rest before

/-- The first task of a queue is that of an emitter that waits for it, and the only one. -/
theorem Tended.task (tended : Tended ⟨d, flushes⟩) {queue : Nat} {rest : List Nat}
    (first : d.waiting queue = index :: rest) (present : d.seats[index]? = some seat) :
    (Scene.after (d.withQueue queue rest) flushes index seat (seat.emitter.apply .tick)).Tended := by
  have attended := tended index seat present
  have known : seat.queue < (d.withQueue queue rest).queues.length := by
    simpa [Dispatch.withQueue] using attended.known
  refine .after present known (fun other seat' differ present' => ?_) ?_
  · refine (tended other seat' present').spared (by simp [Dispatch.withQueue]) rfl rfl fun _ queue' => ?_
    rw [d.waiting_withQueue first]
    split
    · rename_i same
      simp [same, first, Ne.symm differ]
    · rfl
  · have unqueued : (seat.emitter.apply .tick).1.journal.count .queued = 0 := by simp [Emitter.apply, attended.settled]
    refine attended_after known attended.hosted attended.secure (.single (.task _ _)) unqueued ?_ ?_
    · intro live queue'
      obtain ⟨owed, requested⟩ := seat.emitter.scheduler.owed_tick
      have here := attended.tasks live queue
      have there := attended.tasks live queue'
      have most := seat.emitter.scheduler.owed_le
      simp only [first, List.count_cons_self] at here
      simp only [Emitter.apply, Scheduler.handle, owed, requested, d.waiting_withQueue first]
      -- the task that was taken was the only one that could be owed, and only to the queue of the emitter
      by_cases own : queue = seat.queue
      · subst own
        rw [if_pos rfl] at here
        by_cases same : queue' = seat.queue
        · simp only [same, if_true]
          omega
        · simpa only [same, if_false, Nat.add_zero] using there
      · simp only [own, if_false] at here
        omega
    · intro idle
      have nothing := attended.orderly.tick_of_idle idle
      simp only [Emitter.apply, Scheduler.handle, attended.settled, List.append_nil] at idle ⊢
      rw [nothing] at idle ⊢
      exact attended.rest idle

theorem calls_cons (index : Nat) (payload : String) (flushes : List (Nat × String)) :
    calls index ((index, payload) :: flushes) = .sink payload :: calls index flushes := by
  simp [calls]

/-- The end of a flush leaves the other emitters as they are. -/
theorem Attended.ended {other : Nat} {payload : String}
    (attended : Attended ⟨d, (index, payload) :: flushes⟩ other seat) (differ : other ≠ index) :
    Attended ⟨d, flushes⟩ other seat :=
  attended.spared rfl rfl (by simp [calls, Ne.symm differ]) fun _ _ => rfl

/-- The emitter of the innermost flush holds what came in since that flush began. -/
theorem Attended.flushing {payload : String} (attended : Attended ⟨d, (index, payload) :: flushes⟩ index seat) :
    seat.emitter.scheduler.phase = .flushing ∧ seat.emitter.scheduler.buffer = (d.history index).since := by
  have sound := attended.secure.sound
  simp only [view, calls_cons] at sound
  obtain ⟨busy, -⟩ := sound.busy
  have buffer := busy.buffer
  simp only [Emitter.resume, attended.settled, List.append_nil] at buffer
  exact ⟨busy.phase, buffer⟩

theorem Tended.finish {payload : String} (tended : Tended ⟨d, (index, payload) :: flushes⟩)
    (present : d.seats[index]? = some seat) (remainder : Option String) :
    (Scene.after d flushes index seat
      ((seat.emitter.note (.finished payload remainder)).apply (.flushed remainder))).Tended := by
  have attended := tended index seat present
  obtain ⟨flushing, -⟩ := attended.flushing
  have others : ∀ other seat', other ≠ index → d.seats[other]? = some seat' → Attended ⟨d, flushes⟩ other seat' :=
    fun other seat' differ present' => (tended other seat' present').ended differ
  refine .after present attended.known others ?_
  refine attended_after attended.known attended.hosted attended.secure ?_ ?_ ?_ ?_
  · rw [seat.emitter.resume_event]
    simp only [view, calls_cons]
    exact .single (.finish _ _ payload remainder)
  · simp [Emitter.apply, Emitter.note, attended.settled]
  · intro live queue
    have owed := attended.tasks live queue
    have none : seat.emitter.scheduler.owed = 0 := by simp [Scheduler.owed, flushing]
    have counted := seat.emitter.scheduler.owed_flushed remainder
    simp only [Emitter.apply, Emitter.note, Scheduler.handle]
    rw [owed, counted, none]
    split <;> simp
  · intro idle
    have same := attended.orderly.buffer_of_flushed flushing idle
    simp only [Emitter.apply, Emitter.note, attended.settled, List.nil_append, Scheduler.handle]
    rw [History.returned_snoc_finished]
    exact same

theorem Tended.fail {payload : String} (tended : Tended ⟨d, (index, payload) :: flushes⟩)
    (present : d.seats[index]? = some seat) (reason : String) :
    (Scene.after d flushes index seat
      ((seat.emitter.note (.failed payload reason)).apply (.failed payload))).Tended := by
  have attended := tended index seat present
  obtain ⟨flushing, buffer⟩ := attended.flushing
  have others : ∀ other seat', other ≠ index → d.seats[other]? = some seat' → Attended ⟨d, flushes⟩ other seat' :=
    fun other seat' differ present' => (tended other seat' present').ended differ
  refine .after present attended.known others ?_
  refine attended_after attended.known attended.hosted attended.secure ?_ ?_ ?_ ?_
  · rw [seat.emitter.resume_event]
    simp only [view, calls_cons]
    exact .single (.fail _ _ payload reason)
  · simp [Emitter.apply, Emitter.note, attended.settled]
  · intro live queue
    have owed := attended.tasks live queue
    have none : seat.emitter.scheduler.owed = 0 := by simp [Scheduler.owed, flushing]
    simp only [Emitter.apply, Emitter.note, Scheduler.handle]
    rw [owed, none]
    simp [Scheduler.failed, Scheduler.owed, requested]
  · intro _
    simp only [Emitter.apply, Emitter.note, attended.settled, List.nil_append, Scheduler.handle]
    rw [History.returned_snoc_failed]
    exact congrArg (payload ++ ·) buffer

/-- The task of an emitter that is gone is taken from its queue, and no other emitter sees it. -/
theorem Tended.stale (tended : Tended ⟨d, flushes⟩) {queue : Nat} {rest : List Nat}
    (first : d.waiting queue = index :: rest) (gone : ∀ seat, d.seats[index]? = some seat → seat.live = false) :
    Tended ⟨d.withQueue queue rest, flushes⟩ := by
  intro other seat' present
  refine (tended other seat' present).spared (by simp [Dispatch.withQueue]) rfl rfl fun live queue' => ?_
  have differ : other ≠ index := by
    rintro rfl
    simp [gone seat' present] at live
  rw [d.waiting_withQueue first]
  split
  · rename_i same
    simp [same, first, Ne.symm differ]
  · rfl

theorem Tended.update (tended : Tended ⟨d, flushes⟩) {change : Seat → Seat}
    (keeps : ∀ seat, Attended ⟨d, flushes⟩ index seat → Attended ⟨d, flushes⟩ index (change seat)) :
    Tended ⟨d.update index change, flushes⟩ := by
  have attended : ∀ other seat', (d.update index change).seats[other]? = some seat' →
      Attended ⟨d, flushes⟩ other seat' := by
    intro other seat' present
    simp only [Dispatch.update, List.getElem?_modify] at present
    split at present
    · rename_i same
      subst same
      obtain ⟨seat, held, rfl⟩ := Option.map_eq_some_iff.mp present
      exact keeps seat (tended index seat held)
    · exact tended other seat' (by simpa using present)
  exact fun other seat' present => (attended other seat' present).spared rfl rfl rfl fun _ _ => rfl

/-- Every step of a scene keeps all emitters attended. -/
theorem Tended.next (tended : s.Tended) (next : Next s s') : s'.Tended := by
  cases next with
  | submit d flushes index seat text present live => exact tended.submit present text
  | task d flushes queue index rest seat first present live => exact tended.task first present
  | stale d flushes queue index rest first gone => exact tended.stale first gone
  | finish d flushes index seat payload remainder present => exact tended.finish present remainder
  | fail d flushes index seat payload reason present => exact tended.fail present reason
  | drop d flushes index =>
    refine tended.update fun seat attended => ?_
    exact ⟨attended.known, attended.hosted, attended.settled, attended.secure, fun live => Bool.noConfusion live,
      attended.rest⟩
  | replan d flushes index responses =>
    refine tended.update fun seat attended => ?_
    have replanned := Moment.Next.replan (seat.emitter.resume (d.history index)) (calls index flushes)
      seat.emitter.decisions responses
    exact ⟨attended.known, attended.hosted, attended.settled, attended.secure.next replanned, attended.tasks,
      attended.rest⟩

theorem Tended.leads (tended : s.Tended) (leads : Leads s s') : s'.Tended := by
  induction leads with
  | refl => exact tended
  | tail _ next ih => exact ih.next next

end Scene

/-- Emitters that nothing has happened to, each with one of the queues for its host. -/
structure Dispatch.Fresh (d : Dispatch) : Prop where
  seats : ∀ seat ∈ d.seats, seat.emitter.scheduler = .initial ∧ seat.emitter.journal = [] ∧
    (seat.emitter.decisions = [] ∧ seat.emitter.fallback = .queue) ∧ seat.queue < d.queues.length
  queues : ∀ queue, d.waiting queue = []
  journal : d.journal = []

/-- Emitters that nothing has happened to are attended. -/
theorem Dispatch.Fresh.tended {d : Dispatch} (fresh : d.Fresh) : Scene.Tended ⟨d, []⟩ := by
  intro index seat present
  obtain ⟨scheduler, journal, hosted, known⟩ := fresh.seats seat (List.mem_of_getElem? present)
  have unused : d.history index = [] := by simp [Dispatch.history, fresh.journal]
  refine ⟨known, hosted, journal, ?_, fun _ queue => ?_, fun _ => ?_⟩
  · exact Moment.secure_initial scheduler (by simp [Emitter.resume, unused, journal])
  · simp [fresh.queues, scheduler, Scheduler.owed, Scheduler.initial]
  · rw [unused, scheduler]
    rfl

end NestedCss
