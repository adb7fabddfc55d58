import Mathlib.Logic.Relation
import NestedCss.Proofs.EmitterSteps

namespace NestedCss

/-- A call that an emitter has made and that has not come back. -/
inductive Call where
  | host
  | sink (payload : String)
  deriving DecidableEq

/-- An emitter with the calls under way, innermost first. -/
structure Moment where
  emitter : Emitter
  calls : List Call

namespace Moment

/-- The moment at which what a scheduler has asked for is begun. -/
def begin : Emitter × Option Action → List Call → Moment
  | (e, none), calls => ⟨e, calls⟩
  | (e, some .schedule), calls => ⟨e, .host :: calls⟩
  | (e, some (.flush payload)), calls => ⟨e.note (.started payload), .sink payload :: calls⟩

/-- What can happen next. Text may come in and a task may run at any moment, whoever is at work. The host may put
the task into a queue, and comes back with success or failure; the sink comes back with a remainder or a failure.
Nothing is assumed about the two: each may act at every moment as it likes. -/
inductive Next : Moment → Moment → Prop
  | submit (e : Emitter) (calls : List Call) (text : String) :
      Next ⟨e, calls⟩ (begin ((e.note (.submitted text)).apply (.submit text)) calls)
  | task (e : Emitter) (calls : List Call) : Next ⟨e, calls⟩ (begin (e.apply .tick) calls)
  | queue (e : Emitter) (calls : List Call) : Next ⟨e, .host :: calls⟩ ⟨e.note .queued, .host :: calls⟩
  | accept (e : Emitter) (calls : List Call) : Next ⟨e, .host :: calls⟩ ⟨e, calls⟩
  | refuse (e : Emitter) (calls : List Call) : Next ⟨e, .host :: calls⟩ ⟨e.refuse, calls⟩
  | finish (e : Emitter) (calls : List Call) (payload : String) (remainder : Option String) :
      Next ⟨e, .sink payload :: calls⟩
        (begin ((e.note (.finished payload remainder)).apply (.flushed remainder)) calls)
  | fail (e : Emitter) (calls : List Call) (payload reason : String) :
      Next ⟨e, .sink payload :: calls⟩ (begin ((e.note (.failed payload reason)).apply (.failed payload)) calls)
  | replan (e : Emitter) (calls : List Call) (decisions : List Decision) (responses : List Response) :
      Next ⟨e, calls⟩ ⟨{ e with decisions, responses }, calls⟩

abbrev Leads : Moment → Moment → Prop := Relation.ReflTransGen Next

end Moment

namespace Emitter
open Moment

/-- A request that, once it is made, comes back through moments. -/
def Heard (request : Activity) : Prop :=
  ∀ e calls, Leads ⟨e, .host :: calls⟩ ⟨(request e).1, calls⟩

variable {ask : Activity}

/-- Where the scheduler can at most ask for a flush, heeding it goes through moments. -/
theorem leads_heed (heard : Heard ask) (asked : Emitter × Option Action) (calls : List Call)
    (noFlush : ∀ payload, asked.2 ≠ some (.flush payload)) : Leads (begin asked calls) ⟨(heed ask asked).1, calls⟩ := by
  obtain ⟨e, _ | _ | payload⟩ := asked
  · exact .refl
  · exact heard e calls
  · exact absurd rfl (noFlush payload)

theorem leads_submitWith (heard : Heard ask) (text : String) (e : Emitter) (calls : List Call) :
    Leads ⟨e, calls⟩ ⟨(submitWith ask text e).1, calls⟩ := by
  obtain ⟨-, -, -, noFlush⟩ := Scheduler.submit_effect e.scheduler text
  rw [submitWith_eq]
  exact .head (.submit e calls text) (leads_heed heard _ calls noFlush)

theorem leads_submitAll (heard : Heard ask) (texts : List String) (e : Emitter) (calls : List Call) :
    Leads ⟨e, calls⟩ ⟨submitAll ask texts e, calls⟩ := by
  induction texts generalizing e with
  | nil => exact .refl
  | cons text rest ih => exact (leads_submitWith heard text e calls).trans (ih _)

theorem leads_served (heard : Heard ask) (payload : String) (e : Emitter) (calls : List Call) :
    Leads ⟨e.note (.started payload), calls⟩ ⟨served ask payload e, calls⟩ := by
  have answered := Next.replan (e.note (.started payload)) calls e.decisions e.responses.tail
  unfold served
  split
  · exact .head answered (leads_submitAll heard _ _ calls)
  · exact .single answered

/-- A flush goes on until the sink comes back, through the moments in which it submits. -/
theorem leads_deliverWith (heard : Heard ask) (payload : String) (e : Emitter) (calls : List Call) :
    Leads ⟨e.note (.started payload), .sink payload :: calls⟩ ⟨(deliverWith ask payload e).1, calls⟩ := by
  have before := leads_served heard payload e (.sink payload :: calls)
  rw [deliverWith_eq]
  generalize served ask payload e = ready at before ⊢
  generalize e.responses.headD .plain = response
  cases response.failure with
  | some reason => exact before.tail (.fail ready calls payload reason)
  | none =>
    obtain ⟨-, -, noFlush⟩ := Scheduler.flushed_effect ready.scheduler response.remainder
    exact (before.tail (.finish ready calls payload response.remainder)).trans (leads_heed heard _ calls noFlush)

theorem leads_runTaskWith (heard : Heard ask) (e : Emitter) (calls : List Call) :
    Leads ⟨e, calls⟩ ⟨(runTaskWith ask e).1, calls⟩ := by
  have first := Next.task e calls
  rcases runTaskWith_cases ask e with ⟨payload, flush, -, ran⟩ | ⟨quiet, ran⟩
  · rw [show e.apply .tick = ((e.apply .tick).1, some (.flush payload)) from Prod.ext rfl flush] at first
    rw [ran]
    exact .head first (leads_deliverWith heard payload _ calls)
  · rw [show e.apply .tick = ((e.apply .tick).1, none) from Prod.ext rfl quiet] at first
    rw [ran]
    exact .single first

/-- What the host does with a task, it does before it comes back. -/
theorem leads_place (heard : Heard ask) (placement : Placement) (e : Emitter) (calls : List Call) :
    Leads ⟨e, .host :: calls⟩ ⟨(place ask placement e).1, .host :: calls⟩ := by
  cases placement with
  | now => exact leads_runTaskWith heard e _
  | queue => exact .single (.queue e calls)
  | drop => exact .refl

/-- A request beyond the depth that is heard looks like one whose task the host never runs. -/
theorem request_heard (depth : Nat) : Heard (request depth) := by
  induction depth with
  | zero => exact fun e calls => .single (.accept e calls)
  | succ depth ih =>
    intro e calls
    obtain ⟨placement, outcome⟩ := request_cases depth e
    have placed := Relation.ReflTransGen.head (Next.replan e (.host :: calls) e.decisions.tail e.responses)
      (leads_place ih placement _ calls)
    rcases outcome with accepted | refused
    · rw [accepted]
      exact placed.tail (.accept _ calls)
    · rw [refused]
      exact placed.tail (.refuse _ calls)

/-- What is done to an emitter from outside. -/
inductive Operation where
  | submit (text : String)
  /-- Run a task that was placed earlier, at whatever time and how often. -/
  | runTask

def Operation.activity : Operation → Activity
  | submit text => Emitter.submit text
  | runTask => Emitter.runTask

def run (operations : List Operation) (e : Emitter) : Emitter :=
  operations.foldl (fun e operation => (operation.activity e).1) e

/-- Every run of an emitter goes through moments, below whatever calls are under way. -/
theorem leads_run (operations : List Operation) (e : Emitter) (calls : List Call) :
    Leads ⟨e, calls⟩ ⟨run operations e, calls⟩ := by
  induction operations generalizing e with
  | nil => exact .refl
  | cons operation rest ih =>
    refine Relation.ReflTransGen.trans ?_ (ih _)
    cases operation with
    | submit text => exact leads_submitWith (request_heard _) text e calls
    | runTask => exact leads_runTaskWith (request_heard _) e calls

end Emitter

end NestedCss
