import NestedCss.Emission.Dispatch
import NestedCss.Session.Filter

namespace NestedCss

variable {B : Type}

/-- How an instance has its flushes run. -/
inductive Host where
  | own
  | common
  | immediate
  /-- As decided for each request, and in the common queue after that. -/
  | decided (decisions : List Decision)

/-- Where an instance delivers to. -/
inductive Sink where
  | sheet
  /-- A style sheet that nobody reads. -/
  | unread
  /-- As said for each batch, into the common style sheet. -/
  | scripted (responses : List Response)

/-- What an instance is set up with. -/
structure Setup (B : Type) where
  globals : List (Node B)
  /-- The selector of global styles. -/
  root : String
  policy : CapturePolicy
  host : Host
  sink : Sink
  filter : Filter

namespace Setup

def usualRoot : String := ":root"

def commonQueue : Nat := 0

def ownQueue (index : Nat) : Nat := index + 1

/-- The decisions that a host makes, what it does after them, and the queue it uses. -/
def hostPlan (index : Nat) : Host → List Decision × Placement × Nat
  | .own => ([], .queue, ownQueue index)
  | .common => ([], .queue, commonQueue)
  | .immediate => ([], .now, commonQueue)
  | .decided decisions => (decisions, .queue, commonQueue)

/-- The responses that a sink gives before it consumes everything. -/
def responses : Sink → List Response
  | .scripted responses => responses
  | _ => []

/-- True if what a sink consumes goes into the common style sheet. -/
def isRecorded : Sink → Bool
  | .unread => false
  | _ => true

def seat (setup : Setup B) (index : Nat) : Seat :=
  let (decisions, fallback, queue) := hostPlan index setup.host
  ⟨⟨Scheduler.initial, decisions, fallback, responses setup.sink, false, []⟩, queue, true⟩

end Setup

end NestedCss
