import Mathlib.Data.List.Induction
import NestedCss.Emission.TaskQueue
import NestedCss.Proofs.Draining

namespace NestedCss

namespace Task

theorem size_eq (task : Task) : task.size = sizes task.children + 1 := by
  obtain ⟨label, children, failure⟩ := task
  rw [size]

theorem sizes_append (first second : List Task) : sizes (first ++ second) = sizes first + sizes second := by
  induction first with
  | nil => simp [sizes]
  | cons task rest ih => rw [List.cons_append, sizes, sizes, ih, Nat.add_assoc]

/-- The tasks of some trees are those at their roots and those of the trees below. -/
theorem sizes_eq (tasks : List Task) : sizes tasks = tasks.length + sizes (tasks.flatMap children) := by
  induction tasks with
  | nil => rfl
  | cons task rest ih =>
    rw [sizes, size_eq, ih, List.flatMap_cons, sizes_append, List.length_cons]
    omega

/-- All tasks of some trees, level by level, and from left to right on each level. -/
def levelOrder : List Task → List Task
  | [] => []
  | task :: rest => (task :: rest) ++ levelOrder ((task :: rest).flatMap children)
termination_by tasks => sizes tasks
decreasing_by
  rw [sizes_eq (task :: rest), List.length_cons]
  omega

/-- A list of tasks that begins with the roots and goes on with the children of its own tasks can only be
the one level by level. -/
theorem eq_levelOrder {roots tasks : List Task} (closed : roots ++ tasks.flatMap children = tasks) :
    tasks = levelOrder roots := by
  fun_induction levelOrder roots generalizing tasks with
  | case1 =>
    rw [List.nil_append] at closed
    have count := sizes_eq tasks
    rw [closed] at count
    exact List.eq_nil_of_length_eq_zero (by omega)
  | case2 task rest ih =>
    -- what stands behind the roots begins with the next level and is closed in the same way
    have below : (task :: rest).flatMap children ++ (tasks.flatMap children).flatMap children =
        tasks.flatMap children := by
      rw [← List.flatMap_append, closed]
    rw [← ih below, closed]

end Task

namespace TaskQueue
variable {queue middle after : TaskQueue} {tasks more : List Task}

/-- Tasks were run one after another, each taken from the front of the queue and followed at its end by its
children. -/
structure Runs (queue : TaskQueue) (tasks : List Task) (after : TaskQueue) : Prop where
  order : queue.waiting ++ tasks.flatMap Task.children = tasks ++ after.waiting
  recorded : after.ran = queue.ran ++ tasks.map Task.label

theorem Runs.refl (queue : TaskQueue) : Runs queue [] queue :=
  ⟨by simp, by simp⟩

theorem Runs.trans (first : Runs queue tasks middle) (second : Runs middle more after) :
    Runs queue (tasks ++ more) after := by
  constructor
  · rw [List.flatMap_append, ← List.append_assoc, first.order, List.append_assoc, second.order, List.append_assoc]
  · rw [second.recorded, first.recorded, List.map_append, List.append_assoc]

theorem waiting_of_next (none : queue.next = none) : queue.waiting = [] := by
  unfold next at none
  split at none
  · assumption
  · cases none

/-- Running the next task takes it from the front and puts its children at the end. -/
theorem runs_next {result : Except DeliveryError Unit} (taken : queue.next = some (after, result)) :
    ∃ task, Runs queue [task] after ∧ TaskQueue.result task = result := by
  unfold next at taken
  split at taken
  · cases taken
  · rename_i task rest first
    cases taken
    exact ⟨task, ⟨by simp [first], by simp⟩, rfl⟩

/-- The trees in the queue lose exactly the tasks that were run. -/
theorem Runs.sizes_eq (runs : Runs queue tasks after) :
    Task.sizes queue.waiting = tasks.length + Task.sizes after.waiting := by
  have sizes := congrArg Task.sizes runs.order
  rw [Task.sizes_append, Task.sizes_append, Task.sizes_eq tasks] at sizes
  omega

theorem Runs.eq_levelOrder (runs : Runs queue tasks after) (empty : after.waiting = []) :
    tasks = Task.levelOrder queue.waiting :=
  Task.eq_levelOrder (by rw [runs.order, empty, List.append_nil])

/-- What one call has done. It returns the number of the tasks and an empty queue exactly if none of them
has failed; a task that fails is the last one, and its error is returned. -/
structure Call (queue : TaskQueue) (tasks : List Task) (after : TaskQueue) (result : Except DeliveryError Nat) : Prop
    extends Runs queue tasks after where
  succeeds : result = .ok tasks.length ∧ after.waiting = [] ↔ ∀ task ∈ tasks, task.failure = none
  fails : ∀ earlier task later reason, tasks = earlier ++ task :: later → task.failure = some reason →
    later = [] ∧ result = .error (.host reason)

theorem Call.done (empty : queue.waiting = []) : Call queue [] queue (.ok 0) :=
  ⟨.refl queue, by simp [empty], by simp⟩

theorem Call.failed {task : Task} {reason : String} (runs : Runs queue [task] after) (failure : task.failure = some reason) :
    Call queue [task] after (.error (.host reason)) := by
  refine ⟨runs, by simp [failure], fun earlier other later reason' split failure' => ?_⟩
  obtain ⟨rfl, rfl, rfl⟩ : earlier = [] ∧ task = other ∧ [] = later := by
    cases earlier <;> simp_all
  rw [failure] at failure'
  cases failure'
  exact ⟨rfl, rfl⟩

/-- A call goes on behind a task that succeeds, and counts it. -/
theorem Call.cons {task : Task} {result : Except DeliveryError Nat} (runs : Runs queue [task] middle)
    (fine : task.failure = none) (rest : Call middle tasks after result) :
    Call queue (task :: tasks) after (result.map (· + 1)) := by
  refine ⟨runs.trans rest.toRuns, ?_, fun earlier other later reason split failure => ?_⟩
  · rw [List.forall_mem_cons, and_iff_right fine, ← rest.succeeds]
    cases result <;> simp [Except.map]
  · cases earlier with
    | nil =>
      obtain ⟨rfl, -⟩ := List.cons.inj split
      cases fine.symm.trans failure
    | cons first earlier =>
      obtain ⟨-, split⟩ := List.cons.inj split
      obtain ⟨last, error⟩ := rest.fails earlier other later reason split failure
      exact ⟨last, by rw [error]; rfl⟩

/-- Every task that is run takes one off the number of tasks in the trees. -/
theorem exhausting_next : Exhausting next (fun _ => True) (fun queue => Task.sizes queue.waiting) where
  keeps _ _ := trivial
  lowers _ taken := by
    obtain ⟨task, runs, -⟩ := runs_next taken
    have fewer := runs.sizes_eq
    rw [List.length_singleton] at fewer
    omega

theorem runAll_of_none (none : queue.next = none) : queue.runAll = (queue, .ok 0) :=
  drain_of_none none _

theorem runAll_of_error {e : DeliveryError} (failed : queue.next = some (after, .error e)) :
    queue.runAll = (after, .error e) := by
  have lower := exhausting_next.lowers trivial failed
  obtain ⟨bound, same⟩ := Nat.exists_eq_add_one_of_ne_zero (Nat.ne_zero_of_lt lower)
  simp only [runAll, same, drain, failed]

theorem runAll_of_ok (fine : queue.next = some (middle, .ok ())) :
    queue.runAll = (middle.runAll.1, middle.runAll.2.map (· + 1)) :=
  exhausting_next.drain_of_ok trivial fine

/-- Each call comes to an end, and what it has done is known. The induction is on the number of tasks in the
trees, since a task may put more tasks into the queue than it takes out. -/
theorem exists_call (queue : TaskQueue) : ∃ tasks, Call queue tasks queue.runAll.1 queue.runAll.2 := by
  induction size : Task.sizes queue.waiting using Nat.strongRecOn generalizing queue with
  | ind size ih =>
    subst size
    cases taken : queue.next with
    | none =>
      rw [runAll_of_none taken]
      exact ⟨[], .done (waiting_of_next taken)⟩
    | some step =>
      obtain ⟨middle, result⟩ := step
      obtain ⟨task, runs, rfl⟩ := runs_next taken
      cases failure : task.failure with
      | some reason =>
        rw [TaskQueue.result, failure] at taken
        rw [runAll_of_error taken]
        exact ⟨[task], .failed runs failure⟩
      | none =>
        have lower := exhausting_next.lowers trivial taken
        rw [TaskQueue.result, failure] at taken
        obtain ⟨tasks, rest⟩ := ih _ lower middle rfl
        rw [runAll_of_ok taken]
        exact ⟨task :: tasks, rest.cons runs failure⟩

theorem Call.of_ok {count : Nat} (call : Call queue tasks after (.ok count)) : after.waiting = [] := by
  refine (call.succeeds.mpr fun task inside => ?_).2
  obtain ⟨earlier, later, split⟩ := List.append_of_mem inside
  cases failure : task.failure with
  | none => rfl
  | some reason => exact nomatch (call.fails earlier task later reason split failure).2

theorem Call.ne_nil {e : DeliveryError} (call : Call queue tasks after (.error e)) : tasks ≠ [] := by
  rintro rfl
  exact nomatch (call.succeeds.mpr (by simp)).1

/-- The queue after a number of calls. -/
def rerun : Nat → TaskQueue → TaskQueue
  | 0, queue => queue
  | count + 1, queue => rerun count queue.runAll.1

/-- Calls that are repeated go on where the one before has stopped. -/
theorem exists_runs_rerun (count : Nat) (queue : TaskQueue) : ∃ tasks, Runs queue tasks (queue.rerun count) := by
  induction count generalizing queue with
  | zero => exact ⟨[], .refl queue⟩
  | succ count ih =>
    obtain ⟨tasks, call⟩ := queue.exists_call
    obtain ⟨more, runs⟩ := ih queue.runAll.1
    exact ⟨tasks ++ more, call.toRuns.trans runs⟩

/-- Some repeated call succeeds, for every one that fails has taken a task off the trees. -/
theorem exists_rerun_ok (queue : TaskQueue) : ∃ count number, (queue.rerun count).runAll.2 = .ok number := by
  induction size : Task.sizes queue.waiting using Nat.strongRecOn generalizing queue with
  | ind size ih =>
    subst size
    obtain ⟨tasks, call⟩ := queue.exists_call
    cases result : queue.runAll.2 with
    | ok number => exact ⟨0, number, result⟩
    | error e =>
      rw [result] at call
      have taken := List.length_pos_iff.mpr call.ne_nil
      have fewer := call.toRuns.sizes_eq
      obtain ⟨count, number, fine⟩ := ih _ (by omega) queue.runAll.1 rfl
      exact ⟨count + 1, number, fine⟩

/-- Calls that are repeated until one succeeds have run all the trees level by level. -/
theorem runAll_of_rerun {count number : Nat} (fine : (queue.rerun count).runAll.2 = .ok number) :
    (queue.rerun count).runAll.1 = ⟨[], queue.ran ++ (Task.levelOrder queue.waiting).map Task.label⟩ := by
  obtain ⟨earlier, runs⟩ := exists_runs_rerun count queue
  obtain ⟨tasks, call⟩ := (queue.rerun count).exists_call
  rw [fine] at call
  have whole := runs.trans call.toRuns
  have recorded := whole.recorded
  rw [whole.eq_levelOrder call.of_ok] at recorded
  exact congr (congrArg TaskQueue.mk call.of_ok) recorded

inductive Operation where
  | push (task : Task)
  | run

def perform (queue : TaskQueue) : Operation → TaskQueue
  | .push task => queue.push task
  | .run => queue.runAll.1

def operate (operations : List Operation) : TaskQueue :=
  operations.foldl perform empty

/-- In the course of operations on an empty queue some tasks were queued, from outside or by a task that ran,
and some were run, both in the order of time. -/
inductive Account : List Operation → List Task → List Task → TaskQueue → Prop
  | start : Account [] [] [] empty
  | push {operations queued ran queue} (task : Task) : Account operations queued ran queue →
      Account (operations ++ [.push task]) (queued ++ [task]) ran (queue.push task)
  | run {operations queued ran queue tasks} : Account operations queued ran queue →
      Call queue tasks queue.runAll.1 queue.runAll.2 →
      Account (operations ++ [.run]) (queued ++ tasks.flatMap Task.children) (ran ++ tasks) queue.runAll.1

/-- Every run of operations has its account. -/
theorem exists_account (operations : List Operation) : ∃ queued ran, Account operations queued ran (operate operations) := by
  induction operations using List.reverseRecOn with
  | nil => exact ⟨[], [], .start⟩
  | append_singleton operations operation ih =>
    obtain ⟨queued, ran, account⟩ := ih
    simp only [operate, List.foldl_append, List.foldl_cons, List.foldl_nil]
    cases operation with
    | push task => exact ⟨_, _, account.push task⟩
    | run =>
      obtain ⟨tasks, call⟩ := (operate operations).exists_call
      exact ⟨_, _, account.run call⟩

/-- Tasks are run in the order in which they were queued; those that wait are the ones queued last. -/
theorem Account.fifo {operations : List Operation} {queued ran : List Task}
    (account : Account operations queued ran queue) :
    queued = ran ++ queue.waiting ∧ queue.ran = ran.map Task.label := by
  induction account with
  | start => exact ⟨rfl, rfl⟩
  | push task _ ih => exact ⟨by rw [ih.1, TaskQueue.push, List.append_assoc], ih.2⟩
  | run _ call ih =>
    constructor
    · rw [ih.1, List.append_assoc, call.order, List.append_assoc]
    · rw [call.recorded, ih.2, List.map_append]

/-- Every task runs once, in the order of queueing. Whatever is pushed and run in turn, the tasks that ran are
those that were queued first, by whomever, and the others wait in that order. Each call ends by itself, with
no task left and the number of tasks that it ran exactly if none of them failed, and otherwise right behind
the first one that did. Some repeated call succeeds, and then all trees were run level by level. -/
theorem every_task_runs_once (operations : List Operation) (queue : TaskQueue) :
    (∃ queued ran, Account operations queued ran (operate operations) ∧
      queued = ran ++ (operate operations).waiting ∧ (operate operations).ran = ran.map Task.label) ∧
    (∀ bound, Task.sizes queue.waiting ≤ bound → drain next bound queue = queue.runAll) ∧
    (∃ tasks, Call queue tasks queue.runAll.1 queue.runAll.2) ∧
    (∃ count number, (queue.rerun count).runAll.2 = .ok number) ∧
    ∀ count number, (queue.rerun count).runAll.2 = .ok number →
      (queue.rerun count).runAll.1 = ⟨[], queue.ran ++ (Task.levelOrder queue.waiting).map Task.label⟩ := by
  refine ⟨?_, fun bound enough => ?_, queue.exists_call, queue.exists_rerun_ok, fun _ _ => runAll_of_rerun⟩
  · obtain ⟨queued, ran, account⟩ := exists_account operations
    exact ⟨queued, ran, account, account.fifo⟩
  · exact exhausting_next.drain_congr trivial enough (Nat.le_refl _)

/-- The second task fails and leaves its child queued behind the children of the first one. Another call runs
them, in the order of their levels. -/
theorem every_task_runs_once_resumed :
    let first : Task := ⟨"a", [⟨"c", [⟨"e", [], none⟩], none⟩], none⟩
    let second : Task := ⟨"b", [⟨"d", [], none⟩], some "down"⟩
    let operations := [.push first, .push second, .run]
    let queue := operate [.push first, .push second]
    (∃ queued ran, Account operations queued ran (operate operations) ∧
      queued.map Task.label = ["a", "b", "c", "d"] ∧ ran.map Task.label = ["a", "b"]) ∧
    queue.runAll.2 = .error (.host "down") ∧ queue.runAll.1.ran = ["a", "b"] ∧
      queue.runAll.1.runAll.2 = .ok 3 ∧ queue.runAll.1.runAll.1 = ⟨[], ["a", "b", "c", "d", "e"]⟩ := by
  intro first second operations queue
  obtain ⟨⟨queued, ran, account, order, labels⟩, -, -, -, resumed⟩ := every_task_runs_once operations queue
  refine ⟨⟨queued, ran, account, ?_, labels.symm⟩, rfl, rfl, rfl, (resumed 1 3 rfl).trans ?_⟩
  · rw [order, List.map_append, ← labels]
    rfl
  · simp [queue, operate, perform, push, empty, first, second, Task.levelOrder]

end TaskQueue

end NestedCss
