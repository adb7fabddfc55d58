import NestedCss.Emission.Error
import NestedCss.Emission.Scheduler

namespace NestedCss

/-- What the host does with a task. -/
inductive Placement where
  | now
  | queue
  | drop
  deriving DecidableEq

/-- What the host reports of a request, which it may choose by what the task came to. A task that has not
run counts as one that went well. -/
def Verdict := Except DeliveryError Unit → Except DeliveryError Unit

namespace Verdict

/-- The host passes on the error of the task; if there is none and it has a reason of its own, it fails
with that. -/
def failing (reason? : Option String) : Verdict
  | .error e => .error e
  | .ok () =>
    match reason? with
    | some reason => .error (.host reason)
    | none => .ok ()

/-- The host reports what the task came to. -/
def candid : Verdict := failing none

/-- The host reports success, whatever the task came to. -/
def lenient : Verdict := fun _ => .ok ()

instance : Coe (Option String) Verdict := ⟨failing⟩

end Verdict

/-- What the host does with one request: it places the task, and then reports. -/
structure Decision where
  placement : Placement
  verdict : Verdict

/-- What the sink does with one batch. -/
structure Response where
  submissions : List String
  failure : Option String
  remainder : Option String

/-- A sink that has nothing more to say consumes its batch whole. -/
def Response.plain : Response := ⟨[], none, none⟩

/-- What happens at an emitter. -/
inductive Occurrence where
  | submitted (text : String)
  /-- The task of a request went into the queue. -/
  | queued
  | started (payload : String)
  | finished (payload : String) (remainder : Option String)
  | failed (payload reason : String)
  /-- A request was refused while this many bytes waited. -/
  | unscheduled (bytes : Nat)
  deriving DecidableEq

/-- An emitter with its two partners, and what has happened since the journal was last emptied. The host
decides of every request for a flush, the sink responds to every batch, and what they will do is written
down ahead. A task that the host has kept is run by `Emitter.runTask`, whenever it likes. -/
structure Emitter where
  scheduler : Scheduler
  decisions : List Decision
  /-- Where the host puts tasks when its decisions are used up. It is candid then. -/
  fallback : Placement
  responses : List Response
  /-- Whether the submissions of the sink reach the emitter. -/
  attached : Bool
  journal : List Occurrence

namespace Emitter

/-- What an emitter becomes in the course of an activity, and the result. -/
abbrev Activity := Emitter → Emitter × Except DeliveryError Unit

def note (e : Emitter) (occurrence : Occurrence) : Emitter :=
  { e with journal := e.journal ++ [occurrence] }

/-- Lets the scheduler take an event. -/
def apply (e : Emitter) (event : Event) : Emitter × Option Action :=
  let (scheduler, action) := e.scheduler.handle event
  ({ e with scheduler }, action)

def takeDecision (e : Emitter) : Decision × Emitter :=
  match e.decisions with
  | [] => (⟨e.fallback, .candid⟩, e)
  | decision :: decisions => (decision, { e with decisions })

def takeResponse (e : Emitter) : Response × Emitter :=
  match e.responses with
  | [] => (Response.plain, e)
  | response :: responses => (response, { e with responses })

/-- Takes text, where `request` asks the host for a flush. -/
def submitWith (request : Activity) (text : String) : Activity := fun e =>
  match (e.note (.submitted text)).apply (.submit text) with
  | (e, some .schedule) => request e
  | (e, _) => (e, .ok ())

/-- Lets the sink submit texts. Their results are of no interest to it. -/
def submitAll (request : Activity) (texts : List String) (e : Emitter) : Emitter :=
  texts.foldl (fun e text => (submitWith request text e).1) e

/-- Hands a batch to the sink and goes on as its response says. -/
def deliverWith (request : Activity) (payload : String) : Activity := fun e =>
  let (response, e) := (e.note (.started payload)).takeResponse
  let e := if e.attached then submitAll request response.submissions e else e
  match response.failure with
  | some reason =>
    (((e.note (.failed payload reason)).apply (.failed payload)).1, .error (.sink reason))
  | none =>
    match (e.note (.finished payload response.remainder)).apply (.flushed response.remainder) with
    | (e, some .schedule) => request e
    | (e, _) => (e, .ok ())

def runTaskWith (request : Activity) : Activity := fun e =>
  match e.apply .tick with
  | (e, some (.flush payload)) => deliverWith request payload e
  | (e, _) => (e, .ok ())

/-- Places a task as the host has decided. -/
def place (request : Activity) : Placement → Activity
  | .now => runTaskWith request
  | .queue => fun e => (e.note .queued, .ok ())
  | .drop => fun e => (e, .ok ())

/-- Lets the scheduler know that a request was refused. -/
def refuse (e : Emitter) : Emitter :=
  let e := match e.scheduler.phase with
    | .pending => e.note (.unscheduled e.scheduler.buffer.utf8ByteSize)
    | _ => e
  (e.apply .unscheduled).1

/-- Asks the host for a flush. What the host reports is the result, and if it reports a failure the request
is refused. A task that is run at once may ask again, at most `depth` deep; a request beyond that is not
heard. -/
def request : Nat → Activity
  | 0 => fun e => (e, .ok ())
  | depth + 1 => fun e =>
    let (decision, e) := e.takeDecision
    let (e, came) := place (request depth) decision.placement e
    match decision.verdict came with
    | .error reason => (e.refuse, .error reason)
    | .ok () => (e, .ok ())

/-- How deep requests can be nested: a request inside another one takes a flush into which the sink
has submitted something, and so one of its responses. -/
def depth (e : Emitter) : Nat := e.responses.length + 1

/-- Takes text, and asks for a flush if none is under way. -/
def submit (text : String) : Activity := fun e => submitWith (request e.depth) text e

/-- Runs a task that was placed earlier. -/
def runTask : Activity := fun e => runTaskWith (request e.depth) e

end Emitter

end NestedCss
