namespace NestedCss

/-- How far a flush has come. -/
inductive Phase where
  /-- No flush was asked for. -/
  | idle
  /-- A flush was asked for and has not begun. -/
  | pending
  /-- The sink is consuming a batch. -/
  | flushing
  deriving DecidableEq

/-- What happens to a scheduler. -/
inductive Event where
  | submit (text : String)
  /-- The task that was asked for is running. -/
  | tick
  /-- The sink has consumed its batch and may have left something. -/
  | flushed (remainder : Option String)
  /-- The sink has failed to consume the given batch. -/
  | failed (batch : String)
  /-- The host has refused to take the task. -/
  | unscheduled

/-- What has to be done after an event. -/
inductive Action where
  /-- Ask the host for a flush. -/
  | schedule
  /-- Hand the text to the sink. -/
  | flush (text : String)
  deriving DecidableEq

/-- The text that waits for a flush, the phase, and whether text came in during the flush. A scheduler only says
what has to be done next; asking the host and feeding the sink is up to the emitter. -/
structure Scheduler where
  buffer : String
  phase : Phase
  dirty : Bool
  deriving DecidableEq

namespace Scheduler

def initial : Scheduler := ⟨"", .idle, false⟩

/-- Text is kept until the next flush. In the idle phase a buffer with text asks for one. -/
def submit (s : Scheduler) (text : String) : Scheduler × Option Action :=
  let buffer := s.buffer ++ text
  match s.phase with
  | .idle =>
    if buffer.isEmpty then ({ s with buffer }, none)
    else ({ s with buffer, phase := .pending }, some .schedule)
  | .flushing => ({ s with buffer, dirty := s.dirty || !text.isEmpty }, none)
  | .pending => ({ s with buffer }, none)

/-- A pending flush takes the whole buffer; a task that runs in another phase comes too late. -/
def tick (s : Scheduler) : Scheduler × Option Action :=
  match s.phase with
  | .pending =>
    if s.buffer.isEmpty then ({ s with phase := .idle }, none)
    else (⟨"", .flushing, false⟩, some (.flush s.buffer))
  | _ => (s, none)

/-- What the sink left goes before the text that came in during the flush; only that text asks for
another flush. -/
def flushed (s : Scheduler) (remainder : Option String) : Scheduler × Option Action :=
  let buffer := remainder.getD "" ++ s.buffer
  if s.dirty then (⟨buffer, .pending, false⟩, some .schedule) else (⟨buffer, .idle, false⟩, none)

/-- The batch goes back to the front of the buffer, and nothing is asked for. -/
def failed (s : Scheduler) (batch : String) : Scheduler :=
  ⟨batch ++ s.buffer, .idle, false⟩

/-- A refused flush is forgotten; the buffer is kept. -/
def unscheduled (s : Scheduler) : Scheduler :=
  match s.phase with
  | .pending => { s with phase := .idle }
  | _ => s

/-- The state after an event, and what has to be done next. -/
def handle (s : Scheduler) : Event → Scheduler × Option Action
  | .submit text => s.submit text
  | .tick => s.tick
  | .flushed remainder => s.flushed remainder
  | .failed batch => (s.failed batch, none)
  | .unscheduled => (s.unscheduled, none)

end Scheduler

end NestedCss
