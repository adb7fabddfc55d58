import NestedCss.Proofs.DispatchSteps
import NestedCss.Proofs.ReentrantEmission

namespace NestedCss

namespace Emitter

/-- What becomes of what the scheduler has asked for. A queue takes every task. -/
def carryOut : Emitter × Option Action → Emitter
  | (e, none) => e
  | (e, some .schedule) => e.note .queued
  | (e, some (.flush payload)) => e.note (.started payload)

/-- Puts an emitter after a history. -/
def resume (e : Emitter) (history : History) : Emitter :=
  { e with journal := history ++ e.journal }

theorem resume_note (e : Emitter) (history : History) (occurrence : Occurrence) :
    (e.note occurrence).resume history = (e.resume history).note occurrence := by
  simp [resume, note]

/-- What an emitter makes of an event does not depend on its history. -/
theorem resume_event (e : Emitter) (history : History) (occurrence : Occurrence) (event : Event) :
    (((e.note occurrence).apply event).1.resume history, ((e.note occurrence).apply event).2) =
      ((e.resume history).note occurrence).apply event := by
  rw [← resume_note]
  rfl

@[simp] theorem carryOut_scheduler (asked : Emitter × Option Action) :
    (carryOut asked).scheduler = asked.1.scheduler := by
  obtain ⟨e, _ | _ | payload⟩ := asked <;> rfl

@[simp] theorem carryOut_decisions (asked : Emitter × Option Action) :
    (carryOut asked).decisions = asked.1.decisions := by
  obtain ⟨e, _ | _ | payload⟩ := asked <;> rfl

@[simp] theorem carryOut_fallback (asked : Emitter × Option Action) :
    (carryOut asked).fallback = asked.1.fallback := by
  obtain ⟨e, _ | _ | payload⟩ := asked <;> rfl

@[simp] theorem carryOut_responses (asked : Emitter × Option Action) :
    (carryOut asked).responses = asked.1.responses := by
  obtain ⟨e, _ | _ | payload⟩ := asked <;> rfl

/-- A queue takes the task of every request. -/
theorem request_queue (depth : Nat) {e : Emitter} (hosted : e.decisions = [] ∧ e.fallback = .queue) :
    request (depth + 1) e = (e.note .queued, .ok ()) := by
  simp [request, takeDecision, hosted, place, Verdict.candid, Verdict.failing]

theorem heed_queue (depth : Nat) (asked : Emitter × Option Action)
    (hosted : asked.1.decisions = [] ∧ asked.1.fallback = .queue)
    (noFlush : ∀ payload, asked.2 ≠ some (.flush payload)) :
    heed (request (depth + 1)) asked = (carryOut asked, .ok ()) := by
  obtain ⟨e, _ | _ | payload⟩ := asked
  · rfl
  · exact request_queue depth hosted
  · exact absurd rfl (noFlush payload)

theorem served_hosted (ask : Activity) (payload : String) {e : Emitter}
    (hosted : e.decisions = [] ∧ e.fallback = .queue) (flushing : e.scheduler.phase = .flushing) :
    (served ask payload e).decisions = [] ∧ (served ask payload e).fallback = .queue := by
  obtain ⟨scheduler, -, same⟩ := served_flushing ask payload e flushing
  rw [same]
  exact hosted

/-- With a queue for a host, submitting does not fail, and it queues a task where the scheduler asks for a
flush. -/
theorem submit_queue (text : String) {e : Emitter} (hosted : e.decisions = [] ∧ e.fallback = .queue) :
    Emitter.submit text e = (carryOut ((e.note (.submitted text)).apply (.submit text)), .ok ()) := by
  obtain ⟨-, -, -, noFlush⟩ := Scheduler.submit_effect e.scheduler text
  simp only [Emitter.submit, submitWith_eq, depth]
  exact heed_queue _ _ hosted noFlush

end Emitter

/-- A dispatch with the flushes that are under way, innermost first: the numbers of the emitters and
their payloads. -/
structure Scene where
  dispatch : Dispatch
  flushes : List (Nat × String)

namespace Scene

/-- The flush that an emitter begins if it is to hand a text to its sink. -/
def entered (index : Nat) : Option Action → List (Nat × String)
  | some (.flush payload) => [(index, payload)]
  | _ => []

/-- The scene after an emitter was asked for something. -/
def after (d : Dispatch) (flushes : List (Nat × String)) (index : Nat) (seat : Seat)
    (asked : Emitter × Option Action) : Scene :=
  ⟨d.settle index seat (Emitter.carryOut asked), entered index asked.2 ++ flushes⟩

/-- What can happen next, whichever sinks are at work: text comes in at an emitter that is there, the first
task of a queue runs, an emitter is dropped. The innermost flush ends with a remainder or a failure. What
the sinks will do is theirs to change. -/
inductive Next : Scene → Scene → Prop
  | submit (d : Dispatch) (flushes : List (Nat × String)) (index : Nat) (seat : Seat) (text : String)
      (present : d.seats[index]? = some seat) (live : seat.live = true) :
      Next ⟨d, flushes⟩ (after d flushes index seat ((seat.emitter.note (.submitted text)).apply (.submit text)))
  | task (d : Dispatch) (flushes : List (Nat × String)) (queue index : Nat) (rest : List Nat) (seat : Seat)
      (first : d.waiting queue = index :: rest) (present : d.seats[index]? = some seat) (live : seat.live = true) :
      Next ⟨d, flushes⟩ (after (d.withQueue queue rest) flushes index seat (seat.emitter.apply .tick))
  | stale (d : Dispatch) (flushes : List (Nat × String)) (queue index : Nat) (rest : List Nat)
      (first : d.waiting queue = index :: rest) (gone : ∀ seat, d.seats[index]? = some seat → seat.live = false) :
      Next ⟨d, flushes⟩ ⟨d.withQueue queue rest, flushes⟩
  | finish (d : Dispatch) (flushes : List (Nat × String)) (index : Nat) (seat : Seat) (payload : String)
      (remainder : Option String) (present : d.seats[index]? = some seat) :
      Next ⟨d, (index, payload) :: flushes⟩
        (after d flushes index seat ((seat.emitter.note (.finished payload remainder)).apply (.flushed remainder)))
  | fail (d : Dispatch) (flushes : List (Nat × String)) (index : Nat) (seat : Seat) (payload reason : String)
      (present : d.seats[index]? = some seat) :
      Next ⟨d, (index, payload) :: flushes⟩
        (after d flushes index seat ((seat.emitter.note (.failed payload reason)).apply (.failed payload)))
  | drop (d : Dispatch) (flushes : List (Nat × String)) (index : Nat) : Next ⟨d, flushes⟩ ⟨d.remove index, flushes⟩
  | replan (d : Dispatch) (flushes : List (Nat × String)) (index : Nat) (responses : List Response) :
      Next ⟨d, flushes⟩
        ⟨d.update index fun seat => { seat with emitter := { seat.emitter with responses } }, flushes⟩

abbrev Leads : Scene → Scene → Prop := Relation.ReflTransGen Next

/-- The flushes of one emitter. -/
def calls (index : Nat) (flushes : List (Nat × String)) : List Call :=
  flushes.filterMap fun flush => if flush.1 = index then some (.sink flush.2) else none

/-- A scene as one of the emitters sees it. -/
def view (s : Scene) (index : Nat) (seat : Seat) : Moment :=
  ⟨seat.emitter.resume (s.dispatch.history index), calls index s.flushes⟩

/-- To an emitter whose tasks a queue takes, carrying out what the scheduler has asked for is a matter of
moments. -/
theorem leads_carryOut (history : History) (index : Nat) (asked : Emitter × Option Action)
    (flushes : List (Nat × String)) :
    Moment.Leads (Moment.begin (asked.1.resume history, asked.2) (calls index flushes))
      ⟨(Emitter.carryOut asked).resume history, calls index (entered index asked.2 ++ flushes)⟩ := by
  obtain ⟨e, _ | _ | payload⟩ := asked
  · exact .refl
  · have queued := Moment.Next.queue (e.resume history) (calls index flushes)
    rw [← e.resume_note] at queued
    exact .head queued (.single (.accept _ _))
  · simp only [Moment.begin, ← e.resume_note, Emitter.carryOut, calls, entered, List.cons_append, List.nil_append,
      List.filterMap_cons, if_true]
    exact .refl

end Scene

end NestedCss
