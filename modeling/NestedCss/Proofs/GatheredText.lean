import NestedCss.Proofs.QueueScenes
import NestedCss.Session.Setup

namespace NestedCss

namespace Emitter

/-- An emitter with a queue and a sink that consumes everything, which holds the given text. -/
def holding (text : String) (attached : Bool) : Emitter :=
  ⟨⟨text, if text = "" then .idle else .pending, false⟩, [], .queue, [], attached, []⟩

/-- The first text puts a task into the queue. -/
theorem submit_holding (text more : String) (attached : Bool) :
    Emitter.submit more (holding text attached) =
      ({ holding (text ++ more) attached with
          journal := .submitted more :: if text = "" ∧ more ≠ "" then [.queued] else [] }, .ok ()) := by
  rw [submit_queue more ⟨rfl, rfl⟩]
  by_cases before : text = "" <;> by_cases after : more = "" <;>
    simp [holding, apply, note, Scheduler.handle, Scheduler.submit, carryOut, before, after]

/-- The task of an emitter that holds text delivers all of it and leaves nothing. -/
theorem runTask_holding {text : String} (waits : text ≠ "") (attached : Bool) :
    Emitter.runTask (holding text attached) =
      ({ holding "" attached with journal := [.started text, .finished text none] }, .ok ()) := by
  simp [holding, waits, runTask, runTaskWith, apply, note, Scheduler.handle, Scheduler.tick, deliverWith, takeResponse,
    Response.plain, submitAll, Scheduler.flushed]

end Emitter

namespace Dispatch

/-- One emitter that has gathered text, with its task in a queue of its own. Nothing has been delivered. -/
structure Gathered (d : Dispatch) (text : String) : Prop where
  seats : ∃ attached, d.seats = [⟨.holding text attached, Setup.ownQueue 0, true⟩]
  queues : d.queues = [[], if text = "" then [] else [0]]
  undelivered : ∀ recorded, d.journal.filterMap (Entry.delivered? recorded) = []

variable {d : Dispatch} {text : String}

theorem Gathered.notify (gathered : d.Gathered text) (notices : List Notice) : (d.notify notices).Gathered text where
  seats := gathered.seats
  queues := gathered.queues
  undelivered recorded := by
    simp [Dispatch.notify, gathered.undelivered, List.filterMap_eq_nil_iff, Entry.delivered?]

/-- Text that is submitted joins the text that was gathered, and no second task is queued for it. -/
theorem Gathered.submit (gathered : d.Gathered text) (more : String) :
    (d.submit 0 more).2 = .ok () ∧ (d.submit 0 more).1.Gathered (text ++ more) := by
  obtain ⟨attached, seats⟩ := gathered.seats
  have acted : d.submit 0 more = (d.settle 0 ⟨.holding text attached, Setup.ownQueue 0, true⟩
      (Emitter.submit more (.holding text attached)).1, (Emitter.submit more (.holding text attached)).2) := by
    simp [Dispatch.submit, act, seats]
  rw [acted, Emitter.submit_holding]
  refine ⟨rfl, ⟨attached, by simp [settle, seats, Emitter.holding]⟩, ?_, fun recorded => ?_⟩
  · by_cases before : text = "" <;> by_cases after : more = "" <;>
      simp [settle, gathered.queues, Setup.ownQueue, before, after]
  · by_cases queued : text = "" ∧ more ≠ "" <;>
      simp [settle, gathered.undelivered, queued, Entry.delivered?]

theorem Gathered.attach (gathered : d.Gathered text) : (d.attach 0).Gathered text := by
  obtain ⟨attached, seats⟩ := gathered.seats
  exact ⟨⟨true, by simp [Dispatch.attach, update, seats, Emitter.holding]⟩, gathered.queues, gathered.undelivered⟩

/-- Running the queue delivers what was gathered as one batch. -/
theorem Gathered.run (gathered : d.Gathered text) {recorded : Nat → Bool} (listed : recorded 0 = true) :
    ∃ after count, d.runQueue (Setup.ownQueue 0) = (after, .ok count) ∧
      after.journal.filterMap (Entry.delivered? recorded) = if text = "" then [] else [text] := by
  obtain ⟨attached, seats⟩ := gathered.seats
  by_cases empty : text = ""
  · have idle : next (Setup.ownQueue 0) d = none := by simp [next, waiting, gathered.queues, Setup.ownQueue, empty]
    exact ⟨d, 0, drain_of_none idle _, by rw [gathered.undelivered, if_pos empty]⟩
  · have waits : d.waiting (Setup.ownQueue 0) = [0] := by simp [waiting, gathered.queues, Setup.ownQueue, empty]
    have single : d.bound (Setup.ownQueue 0) = 1 := by simp [bound, waits, seats, Emitter.holding]
    have ran : next (Setup.ownQueue 0) d = some ((d.withQueue (Setup.ownQueue 0) []).settle 0
        ⟨.holding text attached, Setup.ownQueue 0, true⟩ (Emitter.runTask (.holding text attached)).1, .ok ()) := by
      simp [next, waits, act, seats, Emitter.runTask_holding empty, withQueue]
    refine ⟨_, 1, by simp only [runQueue, single, drain, ran]; rfl, ?_⟩
    rw [Emitter.runTask_holding empty, if_neg empty]
    simp [settle, withQueue, gathered.undelivered, Entry.delivered?, List.filterMap_cons, listed]

end Dispatch

end NestedCss
