import Mathlib.Data.List.Basic
import NestedCss.Emission.Dispatch
import NestedCss.Proofs.EmissionAccount

namespace NestedCss

/-- What an entry of the journal says of an emitter. -/
def Entry.occurrence? (index : Nat) : Entry → Option Occurrence
  | .occurred emitter occurrence => if emitter = index then some occurrence else none
  | .notice _ => none

namespace Dispatch

/-- What has happened at an emitter. -/
def history (d : Dispatch) (index : Nat) : History :=
  d.journal.filterMap (Entry.occurrence? index)

/-- The tasks of a queue replaced by others. -/
def withQueue (d : Dispatch) (queue : Nat) (tasks : List Nat) : Dispatch :=
  { d with queues := d.queues.set queue tasks }

variable (d : Dispatch)

/-- What an emitter has done comes last in its own history; those of the others stay as they are. -/
theorem history_settle (index other : Nat) (seat : Seat) (e : Emitter) :
    (d.settle index seat e).history other = d.history other ++ if other = index then e.journal else [] := by
  by_cases same : other = index
  · simp [history, settle, Entry.occurrence?, same, Function.comp_def]
  · simp [history, settle, Entry.occurrence?, same, Ne.symm same, Function.comp_def]

theorem seats_settle {index : Nat} {held : Seat} (present : d.seats[index]? = some held) (other : Nat) (seat : Seat)
    (e : Emitter) : (d.settle index seat e).seats[other]? =
      if other = index then some { seat with emitter := { e with journal := [] } } else d.seats[other]? := by
  have inside : index < d.seats.length := (List.getElem?_eq_some_iff.mp present).1
  by_cases same : other = index
  · simp [settle, same, inside]
  · simp [settle, same, Ne.symm same]

theorem waiting_settle {seat : Seat} (known : seat.queue < d.queues.length) (index queue : Nat) (e : Emitter) :
    (d.settle index seat e).waiting queue =
      d.waiting queue ++ if queue = seat.queue then List.replicate (e.journal.count .queued) index else [] := by
  by_cases same : queue = seat.queue
  · subst same
    simp [waiting, settle, List.getD_eq_getElem?_getD, known]
  · simp [waiting, settle, List.getD_eq_getElem?_getD, same, Ne.symm same]

theorem waiting_withQueue {queue index : Nat} {rest : List Nat} (first : d.waiting queue = index :: rest)
    (tasks : List Nat) (other : Nat) : (d.withQueue queue tasks).waiting other =
      if other = queue then tasks else d.waiting other := by
  have known : queue < d.queues.length := by
    by_contra unknown
    simp [waiting, List.getD_eq_getElem?_getD, unknown] at first
  by_cases same : other = queue
  · subst same
    simp [waiting, withQueue, List.getD_eq_getElem?_getD, known]
  · simp [waiting, withQueue, List.getD_eq_getElem?_getD, same, Ne.symm same]

/-- An emitter that is there does something; one that is gone does nothing. -/
theorem act_cases (index : Nat) (activity : Emitter.Activity) :
    (∃ seat, d.seats[index]? = some seat ∧ seat.live = true ∧
        d.act index activity = (d.settle index seat (activity seat.emitter).1, (activity seat.emitter).2)) ∨
      ((∀ seat, d.seats[index]? = some seat → seat.live = false) ∧ d.act index activity = (d, .ok ())) := by
  unfold act
  cases present : d.seats[index]? with
  | none => exact .inr (by simp)
  | some seat =>
    cases live : seat.live with
    | false => exact .inr (by simp [live])
    | true => exact .inl ⟨seat, rfl, live, by simp [live]⟩

/-- Running the first task of a queue is letting its emitter act after the task has been taken out. -/
theorem next_eq_some {d d' : Dispatch} {queue : Nat} {result : Except DeliveryError Unit}
    (ran : next queue d = some (d', result)) : ∃ index rest, d.waiting queue = index :: rest ∧
      (d.withQueue queue rest).act index Emitter.runTask = (d', result) := by
  unfold next at ran
  cases first : d.waiting queue with
  | nil => simp [first] at ran
  | cons index rest =>
    simp only [first, Option.some.injEq] at ran
    exact ⟨index, rest, rfl, ran⟩

end Dispatch

end NestedCss
