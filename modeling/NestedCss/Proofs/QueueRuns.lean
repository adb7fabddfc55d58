import NestedCss.Proofs.Draining
import NestedCss.Proofs.SharedQueue

namespace NestedCss

namespace Dispatch
open Emitter

/-- Putting an emitter back twice is putting it back once with all that has happened. -/
theorem settle_settle (d : Dispatch) (index : Nat) (seat : Seat) (x y : Emitter) :
    (d.settle index seat x).settle index { seat with emitter := { x with journal := [] } } y =
      d.settle index seat (y.resume x.journal) := by
  simp [settle, resume, Function.comp_def, List.modify_modify_eq, List.append_assoc]

end Dispatch

namespace Scene
open Emitter

variable {d : Dispatch} {flushes : List (Nat × String)} {index : Nat} {seat held : Seat}

theorem carryOut_resume (asked : Emitter × Option Action) (history : History) :
    (carryOut asked).resume history = carryOut (asked.1.resume history, asked.2) := by
  obtain ⟨e, _ | _ | payload⟩ := asked <;> simp [carryOut, resume_note]

/-- An emitter that was put back in between goes on as if it had not been. -/
theorem after_settle (d : Dispatch) (flushes : List (Nat × String)) (index : Nat) (seat : Seat) (e : Emitter)
    (occurrence : Occurrence) (event : Event) :
    after (d.settle index seat e) flushes index { seat with emitter := { e with journal := [] } }
        (({ e with journal := [] }.note occurrence).apply event) =
      after d flushes index seat ((e.note occurrence).apply event) := by
  have same : ({ e with journal := [] } : Emitter).resume e.journal = e := by simp [resume]
  simp only [after, d.settle_settle, carryOut_resume, resume_event, same]
  rfl

theorem after_of_no_flush {asked : Emitter × Option Action} (noFlush : ∀ payload, asked.2 ≠ some (.flush payload)) :
    after d flushes index seat asked = ⟨d.settle index seat (carryOut asked), flushes⟩ := by
  obtain ⟨e, _ | _ | payload⟩ := asked
  · rfl
  · rfl
  · exact absurd rfl (noFlush payload)

section Settled

variable (present : d.seats[index]? = some held)
include present

theorem seats_settled (e : Emitter) : (d.settle index seat e).seats[index]? =
    some { seat with emitter := { e with journal := [] } } := by
  rw [d.seats_settle present, if_pos rfl]

theorem replan_settled (e : Emitter) (responses : List Response) :
    (d.settle index seat e).update index (fun seat => { seat with emitter := { seat.emitter with responses } }) =
      d.settle index seat { e with responses } := by
  have back : (d.settle index seat e).seats[index]? = _ := seats_settled present e
  simp only [Dispatch.update, List.modify_eq_set_getElem?, back]
  simp [Dispatch.settle]

/-- While the sink is at work, its submissions go through scenes one by one. -/
theorem leads_submitAll (live : seat.live = true) (ask : Activity) (texts : List String) (e : Emitter)
    (flushing : e.scheduler.phase = .flushing) :
    Leads ⟨d.settle index seat e, flushes⟩ ⟨d.settle index seat (submitAll ask texts e), flushes⟩ := by
  induction texts generalizing e with
  | nil => exact .refl
  | cons text rest ih =>
    obtain ⟨-, phase, quiet, -⟩ := Scheduler.submit_effect e.scheduler text
    have step := Next.submit (d.settle index seat e) flushes index _ text (seats_settled present e) live
    have asked : (e.note (.submitted text)).apply (.submit text) = ((submitWith ask text e).1, none) := by
      rw [submitWith_flushing ask text e flushing]
      exact Prod.ext rfl (quiet flushing)
    rw [after_settle, asked] at step
    rw [submitAll_cons]
    refine .head step (ih _ ?_)
    rw [submitWith_flushing ask text e flushing]
    exact phase.mpr flushing

theorem leads_served (flushes : List (Nat × String)) (live : seat.live = true) (ask : Activity) (payload : String)
    (e : Emitter) (flushing : e.scheduler.phase = .flushing) :
    Leads ⟨d.settle index seat (e.note (.started payload)), flushes⟩
      ⟨d.settle index seat (served ask payload e), flushes⟩ := by
  have answered := Next.replan (d.settle index seat (e.note (.started payload))) flushes index e.responses.tail
  rw [replan_settled present] at answered
  unfold served
  split
  · exact .head answered (leads_submitAll present live ask _ _ flushing)
  · exact .single answered

/-- A flush goes through scenes, from the one in which its payload was handed to the sink. -/
theorem leads_deliverWith (flushes : List (Nat × String)) (live : seat.live = true) (depth : Nat) (payload : String)
    (e : Emitter) (hosted : e.decisions = [] ∧ e.fallback = .queue) (flushing : e.scheduler.phase = .flushing) :
    Leads ⟨d.settle index seat (e.note (.started payload)), (index, payload) :: flushes⟩
      ⟨d.settle index seat (deliverWith (request (depth + 1)) payload e).1, flushes⟩ := by
  have before := leads_served present ((index, payload) :: flushes) live (request (depth + 1)) payload e flushing
  have ready_hosted := served_hosted (request (depth + 1)) payload hosted flushing
  rw [deliverWith_eq]
  generalize served (request (depth + 1)) payload e = ready at before ready_hosted ⊢
  generalize e.responses.headD .plain = response
  cases response.failure with
  | some reason =>
    have step := Next.fail (d.settle index seat ready) flushes index _ payload reason (seats_settled present ready)
    rw [after_settle] at step
    exact before.tail step
  | none =>
    have step := Next.finish (d.settle index seat ready) flushes index _ payload response.remainder
      (seats_settled present ready)
    obtain ⟨-, -, noFlush⟩ := Scheduler.flushed_effect ready.scheduler response.remainder
    have done := heed_queue depth
      ((ready.note (.finished payload response.remainder)).apply (.flushed response.remainder)) ready_hosted noFlush
    rw [after_settle, after_of_no_flush noFlush] at step
    rw [done]
    exact before.tail step

end Settled

/-- The first task of a queue goes through scenes, with all that comes of it. -/
theorem leads_runTask {queue : Nat} {rest : List Nat} (first : d.waiting queue = index :: rest)
    (present : d.seats[index]? = some seat) (live : seat.live = true)
    (hosted : seat.emitter.decisions = [] ∧ seat.emitter.fallback = .queue) :
    Leads ⟨d, flushes⟩ ⟨(d.withQueue queue rest).settle index seat (seat.emitter.runTask).1, flushes⟩ := by
  have step := Next.task d flushes queue index rest seat first present live
  rcases runTaskWith_cases (request seat.emitter.depth) seat.emitter with ⟨payload, flush, flushing, ran⟩ | ⟨quiet, ran⟩
  · have asked : seat.emitter.apply .tick = ((seat.emitter.apply .tick).1, some (.flush payload)) := Prod.ext rfl flush
    rw [asked] at step
    rw [runTask, ran]
    have present' : (d.withQueue queue rest).seats[index]? = some seat := present
    have delivered := leads_deliverWith present' flushes live seat.emitter.responses.length payload
      (seat.emitter.apply .tick).1 hosted flushing
    exact .head step delivered
  · have asked : seat.emitter.apply .tick = ((seat.emitter.apply .tick).1, none) := Prod.ext rfl quiet
    rw [asked] at step
    rw [runTask, ran]
    exact .single step

theorem Tended.leads_next (tended : Tended ⟨d, flushes⟩) {queue : Nat} {d' : Dispatch}
    {result : Except DeliveryError Unit} (ran : Dispatch.next queue d = some (d', result)) :
    Leads ⟨d, flushes⟩ ⟨d', flushes⟩ := by
  obtain ⟨index, rest, first, acted⟩ := Dispatch.next_eq_some ran
  rcases (d.withQueue queue rest).act_cases index runTask with ⟨seat, present, live, same⟩ | ⟨gone, same⟩
  · obtain ⟨rfl, -⟩ := Prod.mk.inj (same.symm.trans acted)
    exact leads_runTask first present live (tended index seat present).hosted
  · obtain ⟨rfl, -⟩ := Prod.mk.inj (same.symm.trans acted)
    exact .single (.stale d flushes queue index rest first gone)

theorem Tended.leads_submit (tended : Tended ⟨d, flushes⟩) (index : Nat) (text : String) :
    Leads ⟨d, flushes⟩ ⟨(d.submit index text).1, flushes⟩ := by
  rcases d.act_cases index (Emitter.submit text) with ⟨seat, present, live, same⟩ | ⟨-, same⟩
  · have step := Next.submit d flushes index seat text present live
    obtain ⟨-, -, -, noFlush⟩ := Scheduler.submit_effect seat.emitter.scheduler text
    rw [after_of_no_flush noFlush] at step
    rw [Dispatch.submit, same, submit_queue text (tended index seat present).hosted]
    exact .single step
  · rw [Dispatch.submit, same]

/-- A run of a queue goes through scenes up to its last task. -/
theorem Tended.leads_runQueue (tended : Tended ⟨d, flushes⟩) (queue : Nat) :
    Leads ⟨d, flushes⟩ ⟨(d.runQueue queue).1, flushes⟩ := by
  have keeps : ∀ {before after : Dispatch} {result : Except DeliveryError Unit},
      Leads ⟨d, flushes⟩ ⟨before, flushes⟩ → Dispatch.next queue before = some (after, result) →
        Leads ⟨d, flushes⟩ ⟨after, flushes⟩ :=
    fun so_far ran => so_far.trans ((tended.leads so_far).leads_next ran)
  exact drain_keeps keeps (d.bound queue) .refl

end Scene

namespace Emitter
variable {e : Emitter}

/-- At the end of a flush the sink has given a response and has put no task into the queue. -/
theorem count_served (ask : Activity) (payload : String) (flushing : e.scheduler.phase = .flushing) :
    (served ask payload e).journal.count .queued = e.journal.count .queued ∧
      (served ask payload e).responses = e.responses.tail := by
  obtain ⟨scheduler, -, same⟩ := served_flushing ask payload e flushing
  generalize e.responses.headD .plain = response at same
  have unqueued : (response.reaching e.attached).count .queued = 0 := by
    rw [List.count_eq_zero]
    simp only [Response.reaching]
    split <;> simp
  rw [same]
  simp [List.count_append, unqueued]

theorem requested_le (action : Option Action) : Scheduler.requested action ≤ 1 := by
  unfold Scheduler.requested
  split <;> omega

/-- A flush takes a response of the sink before it puts another task into the queue. -/
theorem count_deliverWith (depth : Nat) (payload : String) (hosted : e.decisions = [] ∧ e.fallback = .queue)
    (flushing : e.scheduler.phase = .flushing) (clean : e.scheduler.dirty = false) :
    (deliverWith (request (depth + 1)) payload e).1.journal.count .queued +
        (deliverWith (request (depth + 1)) payload e).1.responses.length ≤
      e.journal.count .queued + e.responses.length := by
  obtain ⟨counted, taken⟩ := count_served (request (depth + 1)) payload flushing
  have ready_hosted := served_hosted (request (depth + 1)) payload hosted flushing
  have quiet := quiet_of_no_response (request (depth + 1)) (e := e) payload
  rw [deliverWith_eq]
  generalize served (request (depth + 1)) payload e = ready at counted taken ready_hosted quiet ⊢
  have finished : ∀ remainder,
      (heed (request (depth + 1)) ((ready.note (.finished payload remainder)).apply (.flushed remainder))).1 =
        carryOut ((ready.note (.finished payload remainder)).apply (.flushed remainder)) := by
    intro remainder
    obtain ⟨-, -, noFlush⟩ := Scheduler.flushed_effect ready.scheduler remainder
    rw [heed_queue depth ((ready.note (.finished payload remainder)).apply (.flushed remainder)) ready_hosted noFlush]
  have queued : ∀ remainder,
      (carryOut ((ready.note (.finished payload remainder)).apply (.flushed remainder))).journal.count .queued =
        e.journal.count .queued +
          Scheduler.requested ((ready.note (.finished payload remainder)).apply (.flushed remainder)).2 := by
    intro remainder
    simp [Scene.count_carryOut, apply, note, counted]
  -- with no response left the sink submits nothing and no task is queued; else the response pays for the task
  cases left : e.responses with
  | nil =>
    simp only [List.headD_nil, Response.plain, finished, queued, quiet left clean, carryOut_responses]
    simp [apply, note, taken, left, Scheduler.requested]
  | cons response rest =>
    rw [List.headD_cons]
    cases response.failure with
    | some reason => simp [apply, note, counted, taken, left]
    | none =>
      have most := requested_le
        ((ready.note (.finished payload response.remainder)).apply (.flushed response.remainder)).2
      simp only [finished, queued, carryOut_responses]
      simp only [apply, note, taken, left, List.tail_cons, List.length_cons] at most ⊢
      omega

/-- A task that asks for another flush has used up a response, so the tasks queued and the responses left do not
become more. -/
theorem count_runTask (hosted : e.decisions = [] ∧ e.fallback = .queue) :
    (e.runTask).1.journal.count .queued + (e.runTask).1.responses.length ≤
      e.journal.count .queued + e.responses.length := by
  rcases Scheduler.tick_effect e.scheduler with ⟨-, ticked⟩ | ⟨quiet, -⟩
  · have ran : e.runTask = deliverWith (request (e.responses.length + 1)) e.scheduler.buffer
        { e with scheduler := ⟨"", .flushing, false⟩ } := by
      simp only [runTask, runTaskWith, apply, ticked, depth]
    rw [ran]
    exact count_deliverWith _ _ hosted rfl rfl
  · have ran : e.runTask = ((e.apply .tick).1, .ok ()) := by
      simp only [runTask, runTaskWith, apply, quiet]
    rw [ran]
    exact Nat.le_refl _

end Emitter

namespace Dispatch
open Scene

/-- The responses that the sinks have not given yet. -/
def responsesLeft (d : Dispatch) : Nat :=
  d.seats.foldr (fun seat total => seat.emitter.responses.length + total) 0

theorem bound_eq (d : Dispatch) (queue : Nat) : d.bound queue = (d.waiting queue).length + d.responsesLeft := rfl

theorem foldr_responses_set {seats : List Seat} {index : Nat} {held : Seat} (present : seats[index]? = some held)
    (seat : Seat) :
    (seats.set index seat).foldr (fun seat total => seat.emitter.responses.length + total) 0 +
        held.emitter.responses.length =
      seats.foldr (fun seat total => seat.emitter.responses.length + total) 0 + seat.emitter.responses.length := by
  induction seats generalizing index with
  | nil => simp at present
  | cons first rest ih =>
    cases index with
    | zero =>
      simp only [List.getElem?_cons_zero, Option.some.injEq] at present
      subst present
      simp only [List.set_cons_zero, List.foldr_cons]
      omega
    | succ index =>
      have rest_eq := ih (by simpa using present)
      simp only [List.set_cons_succ, List.foldr_cons]
      omega

/-- Of all the sinks only that of the emitter which was at work has given responses. -/
theorem responsesLeft_settle {d : Dispatch} {index : Nat} {held : Seat} (present : d.seats[index]? = some held)
    (seat : Seat) (e : Emitter) : (d.settle index seat e).responsesLeft + held.emitter.responses.length =
      d.responsesLeft + e.responses.length :=
  foldr_responses_set present _

variable {d : Dispatch} {flushes : List (Nat × String)}

/-- Each task that is run makes the tasks and responses that are left fewer by one at least. -/
theorem bound_lt_of_next (tended : Tended ⟨d, flushes⟩) {queue : Nat} {d' : Dispatch}
    {result : Except DeliveryError Unit} (ran : next queue d = some (d', result)) : d'.bound queue < d.bound queue := by
  obtain ⟨index, rest, first, acted⟩ := next_eq_some ran
  have popped := d.waiting_withQueue first rest queue
  rw [if_pos rfl] at popped
  rcases (d.withQueue queue rest).act_cases index Emitter.runTask with ⟨seat, present, live, same⟩ | ⟨gone, same⟩
  · obtain ⟨rfl, -⟩ := Prod.mk.inj (same.symm.trans acted)
    have attended := tended index seat present
    have known : seat.queue < (d.withQueue queue rest).queues.length := by
      simpa [withQueue] using attended.known
    have counted := Emitter.count_runTask attended.hosted
    have left := responsesLeft_settle present seat seat.emitter.runTask.1
    have queued := (d.withQueue queue rest).waiting_settle known index queue seat.emitter.runTask.1
    rw [attended.settled, List.count_nil, Nat.zero_add] at counted
    rw [bound_eq, bound_eq, queued, popped, first]
    have kept : (d.withQueue queue rest).responsesLeft = d.responsesLeft := rfl
    split <;> simp only [List.length_append, List.length_replicate, List.length_nil, List.length_cons] <;> omega
  · obtain ⟨rfl, -⟩ := Prod.mk.inj (same.symm.trans acted)
    have kept : (d.withQueue queue rest).responsesLeft = d.responsesLeft := rfl
    rw [bound_eq, bound_eq, popped, first, kept, List.length_cons]
    omega

/-- Running a queue of emitters comes to an end. -/
theorem next_exhausting (queue : Nat) (flushes : List (Nat × String)) :
    Exhausting (next queue) (fun d => Tended ⟨d, flushes⟩) (bound · queue) where
  keeps tended ran := tended.leads (tended.leads_next ran)
  lowers tended ran := bound_lt_of_next tended ran

/-- A run that ends without an error leaves no task in its queue, for it is not its bound that has stopped it. -/
theorem waiting_of_runQueue (tended : Tended ⟨d, flushes⟩) {queue count : Nat} {last : Dispatch}
    (ran : d.runQueue queue = (last, .ok count)) : last.waiting queue = [] := by
  have none_left := (next_exhausting queue flushes).next_eq_none tended (Nat.le_refl _) ran
  cases waits : last.waiting queue with
  | nil => rfl
  | cons index rest => simp [next, waits] at none_left

/-- The task of an emitter that is gone is taken and does nothing. -/
theorem next_of_gone {queue index : Nat} {rest : List Nat} (first : d.waiting queue = index :: rest)
    (gone : ∀ seat, d.seats[index]? = some seat → seat.live = false) :
    next queue d = some (d.withQueue queue rest, .ok ()) := by
  rcases (d.withQueue queue rest).act_cases index Emitter.runTask with ⟨seat, present, live, -⟩ | ⟨-, same⟩
  · exact absurd live (by simp [gone seat present])
  · simp only [next, first]
    exact congrArg some same

/-- Such a task is counted, and the run goes on. -/
theorem runQueue_of_gone (tended : Tended ⟨d, flushes⟩) {queue index : Nat} {rest : List Nat}
    (first : d.waiting queue = index :: rest) (gone : ∀ seat, d.seats[index]? = some seat → seat.live = false) :
    d.runQueue queue =
      (((d.withQueue queue rest).runQueue queue).1, ((d.withQueue queue rest).runQueue queue).2.map (· + 1)) :=
  (next_exhausting queue flushes).drain_of_ok tended (next_of_gone first gone)

/-- What is done to emitters and queues from outside. -/
inductive Operation where
  | submit (index : Nat) (text : String)
  | run (queue : Nat)
  | drop (index : Nat)

def Operation.perform (d : Dispatch) : Operation → Dispatch
  | submit index text => (d.submit index text).1
  | run queue => (d.runQueue queue).1
  | drop index => d.remove index

def operate (d : Dispatch) (operations : List Operation) : Dispatch :=
  operations.foldl Operation.perform d

/-- All that is done from outside goes through scenes. -/
theorem leads_operate (tended : Tended ⟨d, flushes⟩) (operations : List Operation) :
    Leads ⟨d, flushes⟩ ⟨d.operate operations, flushes⟩ := by
  induction operations generalizing d with
  | nil => exact .refl
  | cons operation rest ih =>
    have first : Leads ⟨d, flushes⟩ ⟨operation.perform d, flushes⟩ := by
      cases operation with
      | submit index text => exact tended.leads_submit index text
      | run queue => exact tended.leads_runQueue queue
      | drop index => exact .single (.drop d flushes index)
    exact first.trans (ih (tended.leads first))

end Dispatch

end NestedCss
