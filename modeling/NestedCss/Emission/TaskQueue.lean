import NestedCss.Emission.Drain
import NestedCss.Emission.Error

namespace NestedCss

/-- A deferred task. It records its label, queues further tasks, and then succeeds or fails. -/
structure Task where
  label : String
  /-- The tasks that it queues when it runs. -/
  children : List Task
  /-- The reason for which it then fails, if it does. -/
  failure : Option String

/-- The tasks that wait, first in, first out, and the labels of those that ran. -/
structure TaskQueue where
  waiting : List Task
  ran : List String

mutual

/-- The number of tasks in the tree of a task. -/
def Task.size : Task → Nat
  | ⟨_, children, _⟩ => Task.sizes children + 1

def Task.sizes : List Task → Nat
  | [] => 0
  | task :: rest => task.size + Task.sizes rest

end

namespace TaskQueue

def empty : TaskQueue := ⟨[], []⟩

def push (queue : TaskQueue) (task : Task) : TaskQueue :=
  { queue with waiting := queue.waiting ++ [task] }

def result (task : Task) : Except DeliveryError Unit :=
  match task.failure with
  | none => .ok ()
  | some reason => .error (.host reason)

/-- Takes the first task and runs it. -/
def next (queue : TaskQueue) : Option (TaskQueue × Except DeliveryError Unit) :=
  match queue.waiting with
  | [] => none
  | task :: rest => some (⟨rest ++ task.children, queue.ran ++ [task.label]⟩, result task)

/-- Runs tasks until none is left or one fails. Every task of every tree runs at most once, so their
number is enough as the bound. -/
def runAll (queue : TaskQueue) : TaskQueue × Except DeliveryError Nat :=
  drain next (Task.sizes queue.waiting) queue

end TaskQueue

end NestedCss
