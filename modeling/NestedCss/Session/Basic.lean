import NestedCss.Session.Instance
import NestedCss.Session.Setup

namespace NestedCss

variable {B : Type}

/-- Why an operation failed. -/
inductive SessionError where
  | compile (error : CompileError)
  | delivery (error : DeliveryError)
  /-- The instance was dropped or never came into being. -/
  | gone
  deriving DecidableEq

/-- A member of a session: an instance that may be gone, and whether its batches go into the common
style sheet. -/
structure Member (B : Type) where
  content : Option (Instance B)
  recorded : Bool

/-- The instances by their numbers, and their emitters of the same numbers. They share one queue and one style
sheet. -/
structure Session (B : Type) where
  members : List (Member B)
  dispatch : Dispatch

namespace Session

def initial : Session B := ⟨[], ⟨[], [[]], []⟩⟩

/-- The instance of a number, unless it is gone. -/
def find? (s : Session B) (index : Nat) : Option (Instance B) :=
  s.members[index]?.bind Member.content

/-- Changes the instance of a number. -/
def put (s : Session B) (index : Nat) (content : Option (Instance B)) : Session B :=
  { s with members := s.members.modify index fun member => { member with content } }

/-- True if the batches of an instance go into the common style sheet. -/
def isRecorded (s : Session B) (index : Nat) : Bool :=
  s.members[index]?.any Member.recorded

/-- Adds the notices of a compilation to the journal. -/
def notify (s : Session B) (notices : List Notice) : Session B :=
  { s with dispatch := s.dispatch.notify notices }

/-- Submits text to the emitter of an instance. -/
def submit (s : Session B) (index : Nat) (text : String) : Session B × Except SessionError Unit :=
  let (dispatch, result) := s.dispatch.submit index text
  ({ s with dispatch }, result.mapError .delivery)

def runQueue (s : Session B) (queue : Nat) : Session B × Except SessionError Nat :=
  let (dispatch, result) := s.dispatch.runQueue queue
  ({ s with dispatch }, result.mapError .delivery)

/-- Destroys an instance with its emitter. -/
def drop (s : Session B) (index : Nat) : Session B :=
  let s := s.put index none
  { s with dispatch := s.dispatch.remove index }

section Compiling
variable [Expansion B]

/-- Compiles and submits global nodes in order, up to the first error. -/
def addGlobals (index : Nat) : Instance B → List (Node B) → Session B →
    Session B × Except SessionError (Instance B)
  | i, [], s => (s, .ok i)
  | i, node :: rest, s =>
    let (i, report) := i.addGlobal node
    let s := s.notify report.notices
    match report.outcome with
    | .error e => (s, .error (.compile e))
    | .ok text =>
      match s.submit index text with
      | (s, .error e) => (s, .error e)
      | (s, .ok ()) => addGlobals index i rest s

/-- Makes an instance. If a global node fails the instance is gone at once, but what was emitted
before is not taken back. -/
def create (s : Session B) (setup : Setup B) : Session B × Except SessionError Unit :=
  let index := s.members.length
  let member := ⟨none, Setup.isRecorded setup.sink⟩
  let s : Session B := ⟨s.members ++ [member], s.dispatch.add (setup.seat index)⟩
  match addGlobals index ⟨setup.root, setup.policy, Frame.empty, setup.filter⟩ setup.globals s with
  | (s, .error e) => (s.drop index, .error e)
  | (s, .ok i) =>
    let s := s.put index (some i)
    ({ s with dispatch := s.dispatch.attach index }, .ok ())

/-- Compiles a rule set, and submits its text if the filter passes it. The filter keeps what it has
seen even if the submission fails. -/
def style (s : Session B) (index : Nat) (i : Instance B) (node : Node B)
    (className : Option String) : Session B × Except SessionError String :=
  let report := i.style node className
  let s := s.notify report.notices
  match report.outcome with
  | .error e => (s, .error (.compile e))
  | .ok styled =>
    let s := s.put index (some { i with filter := styled.filter })
    match styled.text with
    | none => (s, .ok styled.className)
    | some text =>
      let (s, result) := s.submit index text
      (s, result.map fun _ => styled.className)

/-- Does something with an instance, unless it is gone. -/
def withInstance {α : Type} (s : Session B) (index : Nat)
    (use : Instance B → Session B × Except SessionError α) : Session B × Except SessionError α :=
  match s.find? index with
  | none => (s, .error .gone)
  | some i => use i

/-- Runs the queue of an instance. An instance that owns no queue has nothing to run. -/
def run (s : Session B) (index : Nat) : Session B × Except SessionError Nat :=
  let queue := Setup.ownQueue index
  if s.dispatch.seats[index]?.any (·.queue == queue) then s.runQueue queue else (s, .ok 0)

end Compiling

/-- The warnings among entries of the journal. -/
def warnings (entries : List Entry) : List String :=
  entries.filterMap Entry.warning?

/-- The elements of the common style sheet that entries of the journal put there. -/
def elements (s : Session B) (entries : List Entry) : List String :=
  entries.filterMap (Entry.delivered? s.isRecorded)

end Session

end NestedCss
