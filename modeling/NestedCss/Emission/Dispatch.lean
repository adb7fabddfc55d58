import NestedCss.Compilation.Report
import NestedCss.Emission.Drain
import NestedCss.Emission.Emitter

namespace NestedCss

inductive Entry where
  | notice (remark : Notice)
  | occurred (emitter : Nat) (occurrence : Occurrence)
  deriving DecidableEq

/-- An emitter among others. -/
structure Seat where
  emitter : Emitter
  /-- The number of the queue for its tasks. -/
  queue : Nat
  live : Bool

/-- The emitters and queues by their numbers, and the journal: all that has happened, in order, together with the
notices of compilations. A task is known by the number of its emitter, and that of an emitter that is gone does
nothing. -/
structure Dispatch where
  seats : List Seat
  queues : List (List Nat)
  journal : List Entry

namespace Dispatch

def waiting (d : Dispatch) (queue : Nat) : List Nat :=
  d.queues.getD queue []

def notify (d : Dispatch) (notices : List Notice) : Dispatch :=
  { d with journal := d.journal ++ notices.map .notice }

/-- Puts back an emitter after an activity: its journal is moved into the common one, and the tasks
that it was to queue are queued. -/
def settle (d : Dispatch) (index : Nat) (seat : Seat) (emitter : Emitter) : Dispatch where
  seats := d.seats.set index { seat with emitter := { emitter with journal := [] } }
  queues := d.queues.modify seat.queue
    (· ++ List.replicate (emitter.journal.count .queued) index)
  journal := d.journal ++ emitter.journal.map (.occurred index)

/-- Lets an emitter do something, unless it is gone. -/
def act (d : Dispatch) (index : Nat) (activity : Emitter.Activity) :
    Dispatch × Except DeliveryError Unit :=
  match d.seats[index]? with
  | none => (d, .ok ())
  | some seat =>
    if seat.live then
      let (emitter, result) := activity seat.emitter
      (d.settle index seat emitter, result)
    else (d, .ok ())

def submit (d : Dispatch) (index : Nat) (text : String) : Dispatch × Except DeliveryError Unit :=
  d.act index (Emitter.submit text)

/-- Takes the first task of a queue and runs it. -/
def next (queue : Nat) (d : Dispatch) : Option (Dispatch × Except DeliveryError Unit) :=
  match d.waiting queue with
  | [] => none
  | index :: rest => some ({ d with queues := d.queues.set queue rest }.act index Emitter.runTask)

/-- How many tasks a queue can run: those that wait, and one more for every response of a sink that
is still to come, since a task is queued again only after the sink has submitted something. -/
def bound (d : Dispatch) (queue : Nat) : Nat :=
  (d.waiting queue).length +
    d.seats.foldr (fun seat total => seat.emitter.responses.length + total) 0

/-- Runs the tasks of a queue until none is left or one fails. -/
def runQueue (d : Dispatch) (queue : Nat) : Dispatch × Except DeliveryError Nat :=
  drain (next queue) (d.bound queue) d

def add (d : Dispatch) (seat : Seat) : Dispatch :=
  { d with seats := d.seats ++ [seat], queues := d.queues ++ [[]] }

def update (d : Dispatch) (index : Nat) (change : Seat → Seat) : Dispatch :=
  { d with seats := d.seats.modify index change }

def remove (d : Dispatch) (index : Nat) : Dispatch :=
  d.update index fun seat => { seat with live := false }

/-- Lets the submissions of the sink reach an emitter. -/
def attach (d : Dispatch) (index : Nat) : Dispatch :=
  d.update index fun seat => { seat with emitter := { seat.emitter with attached := true } }

end Dispatch

/-- The warning that an entry of the journal is, if it is one. -/
def Entry.warning? : Entry → Option String
  | .notice remark => some remark.message
  | .occurred _ (.failed _ reason) => some ("flush failed: " ++ (DeliveryError.sink reason).message)
  | .occurred _ (.unscheduled bytes) =>
    some ("flush of " ++ bytes.repr ++ " bytes could not be scheduled")
  | _ => none

/-- The batch that an entry of the journal delivered, if it is one of the given emitters. -/
def Entry.delivered? (recorded : Nat → Bool) : Entry → Option String
  | .occurred emitter (.finished payload _) => if recorded emitter then some payload else none
  | _ => none

end NestedCss
