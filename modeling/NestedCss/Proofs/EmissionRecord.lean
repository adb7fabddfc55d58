import Mathlib.Data.List.Induction
import NestedCss.Proofs.EmitterMoments

namespace NestedCss

/-- The journals of a run from a start, with the texts submitted from outside and the responses that
the sink has not yet given. Every flush is whole: from its payload to its end. -/
inductive RunRecord (start : Emitter) : List String → List Response → List Occurrence → Prop
  | start : RunRecord start [] start.responses start.journal
  | submitted {texts responses journal} (text : String) : RunRecord start texts responses journal →
      RunRecord start (texts ++ [text]) responses (journal ++ [.submitted text])
  | queued {texts responses journal} : RunRecord start texts responses journal →
      RunRecord start texts responses (journal ++ [.queued])
  | unscheduled {texts responses journal} (bytes : Nat) : RunRecord start texts responses journal →
      RunRecord start texts responses (journal ++ [.unscheduled bytes])
  | flush {texts responses journal} (payload : String) : RunRecord start texts responses journal →
      RunRecord start texts responses.tail
        (journal ++ .started payload :: (responses.headD .plain).reaching start.attached ++
          [(responses.headD .plain).ending payload])

namespace Emitter
variable {start e : Emitter} {texts : List String} {ask : Activity}

/-- What an emitter keeps of a run. -/
structure Recorded (start : Emitter) (texts : List String) (e : Emitter) : Prop where
  attached : e.attached = start.attached
  journal : RunRecord start texts e.responses e.journal

/-- A request that adds no text from outside. -/
def KeepsRecord (ask : Activity) : Prop :=
  ∀ start texts e, Recorded start texts e → Recorded start texts (ask e).1

/-- Where a request adds nothing from outside, neither does asking the host. -/
theorem Recorded.heed (keeps : KeepsRecord ask) {asked : Emitter × Option Action}
    (recorded : Recorded start texts asked.1) : Recorded start texts (heed ask asked).1 := by
  obtain ⟨e, _ | _ | payload⟩ := asked
  · exact recorded
  · exact keeps start texts e recorded
  · exact recorded

theorem Recorded.submitWith (keeps : KeepsRecord ask) (text : String) (recorded : Recorded start texts e) :
    Recorded start (texts ++ [text]) (submitWith ask text e).1 := by
  rw [submitWith_eq]
  exact .heed keeps ⟨recorded.attached, recorded.journal.submitted text⟩

/-- A flush goes into the record whole: the payload, what the sink submits, and how the flush ends. -/
theorem Recorded.deliverWith (keeps : KeepsRecord ask) (payload : String) (recorded : Recorded start texts e)
    (flushing : e.scheduler.phase = .flushing) : Recorded start texts (deliverWith ask payload e).1 := by
  have whole := recorded.journal.flush payload
  rw [← recorded.attached] at whole
  obtain ⟨scheduler, -, served_eq⟩ := served_flushing ask payload e flushing
  rw [deliverWith_eq, served_eq]
  generalize e.responses.headD .plain = response at whole ⊢
  cases failure : response.failure with
  | some reason =>
    simp only [Response.ending, failure] at whole
    exact ⟨recorded.attached, whole⟩
  | none =>
    simp only [Response.ending, failure] at whole
    exact .heed keeps ⟨recorded.attached, whole⟩

theorem Recorded.runTaskWith (keeps : KeepsRecord ask) (recorded : Recorded start texts e) :
    Recorded start texts (runTaskWith ask e).1 := by
  have ticked : Recorded start texts (e.apply .tick).1 := ⟨recorded.attached, recorded.journal⟩
  rcases runTaskWith_cases ask e with ⟨payload, -, flushing, ran⟩ | ⟨-, ran⟩
  · rw [ran]
    exact ticked.deliverWith keeps payload flushing
  · rw [ran]
    exact ticked

theorem Recorded.refuse (recorded : Recorded start texts e) : Recorded start texts e.refuse := by
  unfold Emitter.refuse
  split
  · exact ⟨recorded.attached, recorded.journal.unscheduled _⟩
  · exact ⟨recorded.attached, recorded.journal⟩

/-- Whatever the host decides on a request, nothing comes from outside in its course. The induction is on the
depth, for a task that is run at once may ask again. -/
theorem request_keepsRecord (depth : Nat) : KeepsRecord (request depth) := by
  induction depth with
  | zero => exact fun _ _ _ recorded => recorded
  | succ depth ih =>
    intro start texts e recorded
    obtain ⟨placement, outcome⟩ := request_cases depth e
    have decided : Recorded start texts { e with decisions := e.decisions.tail } := ⟨recorded.attached, recorded.journal⟩
    have placed : Recorded start texts (place (request depth) placement { e with decisions := e.decisions.tail }).1 := by
      cases placement with
      | now => exact decided.runTaskWith ih
      | queue => exact ⟨decided.attached, decided.journal.queued⟩
      | drop => exact decided
    rcases outcome with accepted | refused
    · rw [accepted]
      exact placed
    · rw [refused]
      exact placed.refuse

def Operation.text? : Operation → Option String
  | submit text => some text
  | runTask => none

/-- A run is recorded with all the texts that were submitted in its course. -/
theorem recorded_run (start : Emitter) (operations : List Operation) :
    Recorded start (operations.filterMap Operation.text?) (run operations start) := by
  induction operations using List.reverseRecOn with
  | nil => exact ⟨rfl, .start⟩
  | append_singleton operations operation ih =>
    simp only [run, List.foldl_append, List.foldl_cons, List.foldl_nil, List.filterMap_append]
    cases operation with
    | submit text => exact ih.submitWith (request_keepsRecord _) text
    | runTask =>
      have noText : List.filterMap Operation.text? [.runTask] = [] := rfl
      rw [noText, List.append_nil]
      exact ih.runTaskWith (request_keepsRecord _)

end Emitter

end NestedCss
