import NestedCss.Session.Basic

namespace NestedCss

variable {B : Type}

/-- Something to do with an instance. -/
inductive Command (B : Type) where
  | style (node : Node B) (className : Option String)
  | compile (node : Node B) (selector : String)
  | submit (text : String)
  /-- Run the queue of the instance. -/
  | run
  /-- Run the common queue. -/
  | drain
  /-- Destroy the instance. -/
  | drop
  | describe

/-- The answer to a command. -/
inductive Reply where
  | nothing
  | text (content : String)
  | count (number : Nat)
  /-- The root selector, the names of the macros, and the number of token rules. -/
  | description (root : String) (names : List String) (rules : Nat)

section Compiling
variable [Expansion B]

/-- Carries out a command. Only the common queue can be run, and an instance dropped, where the
instance is gone. -/
def Session.perform (s : Session B) (index : Nat) : Command B → Session B × Except SessionError Reply
  | .style node className => s.withInstance index fun i =>
    let (s, result) := s.style index i node className
    (s, result.map .text)
  | .compile node selector => s.withInstance index fun i =>
    let report := i.compile node selector
    (s.notify report.notices, (report.outcome.mapError .compile).map .text)
  | .submit text => s.withInstance index fun _ =>
    let (s, result) := s.submit index text
    (s, result.map fun _ => .nothing)
  | .run => s.withInstance index fun _ =>
    let (s, result) := s.run index
    (s, result.map .count)
  | .drain =>
    let (s, result) := s.runQueue Setup.commonQueue
    (s, result.map .count)
  | .drop => (s.drop index, .ok .nothing)
  | .describe => s.withInstance index fun i =>
    (s, .ok (.description i.root i.table.names (Scope.chain [i.table]).length))

end Compiling

end NestedCss
