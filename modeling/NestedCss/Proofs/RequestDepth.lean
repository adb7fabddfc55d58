import NestedCss.Proofs.SchedulerOrder

namespace NestedCss

namespace Emitter
variable {ask ask' : Activity}

/-- While the sink is at work nothing is asked of the host. -/
theorem submitAll_congr (ask ask' : Activity) (texts : List String) (e : Emitter)
    (flushing : e.scheduler.phase = .flushing) : submitAll ask texts e = submitAll ask' texts e := by
  induction texts generalizing e with
  | nil => rfl
  | cons text rest ih =>
    obtain ⟨-, phase, -, -⟩ := Scheduler.submit_effect e.scheduler text
    rw [submitAll_cons, submitAll_cons, submitWith_flushing ask text e flushing,
      submitWith_flushing ask' text e flushing]
    exact ih _ (phase.mpr flushing)

theorem served_congr (payload : String) (e : Emitter) (flushing : e.scheduler.phase = .flushing) :
    served ask payload e = served ask' payload e := by
  have same := submitAll_congr ask ask' (e.responses.headD .plain).submissions
    { e.note (.started payload) with responses := e.responses.tail } flushing
  unfold served
  split
  · exact same
  · rfl

theorem heed_congr {asked : Emitter × Option Action} (same : asked.2 = some .schedule → ask asked.1 = ask' asked.1) :
    heed ask asked = heed ask' asked := by
  obtain ⟨e, _ | _ | payload⟩ := asked
  · rfl
  · exact same rfl
  · rfl

/-- A sink that has no response left submits nothing, and so the flush is not followed by a request. -/
theorem quiet_of_no_response (ask : Activity) (payload : String) {e : Emitter} (left : e.responses = [])
    (clean : e.scheduler.dirty = false) :
    (((served ask payload e).note (.finished payload none)).apply (.flushed none)).2 = none := by
  simp [served, left, Response.plain, submitAll, apply, note, Scheduler.handle, Scheduler.flushed, clean]

/-- A flush comes to the same under two ways of answering requests that agree where fewer responses are left. The
request behind it comes after the response that this flush has taken. -/
theorem deliverWith_congr (payload : String) (e : Emitter) (flushing : e.scheduler.phase = .flushing)
    (clean : e.scheduler.dirty = false)
    (same : ∀ later : Emitter, later.responses.length < e.responses.length → ask later = ask' later) :
    deliverWith ask payload e = deliverWith ask' payload e := by
  rw [deliverWith_eq, deliverWith_eq, served_congr payload e flushing]
  cases left : e.responses with
  | nil =>
    have quiet := quiet_of_no_response ask' payload left clean
    exact heed_congr fun asked => absurd (asked.symm.trans quiet) (by simp)
  | cons response rest =>
    obtain ⟨scheduler, -, served_eq⟩ := served_flushing ask' payload e flushing
    rw [List.headD_cons]
    cases response.failure with
    | some reason => rfl
    | none =>
      refine heed_congr fun _ => same _ ?_
      rw [served_eq]
      simp [apply, note, left]

/-- A task asks the host for something only when the sink has given one of its responses. -/
theorem runTaskWith_congr (e : Emitter)
    (same : ∀ later : Emitter, later.responses.length < e.responses.length → ask later = ask' later) :
    runTaskWith ask e = runTaskWith ask' e := by
  rcases Scheduler.tick_effect e.scheduler with ⟨-, ticked⟩ | ⟨quiet, -⟩
  · simp only [runTaskWith, apply, ticked]
    exact deliverWith_congr _ _ rfl rfl same
  · simp only [runTaskWith, apply, quiet]

/-- Above the number of the responses that are left, the depth of a request makes no difference. -/
theorem request_congr {depth depth' : Nat} (e : Emitter) (deep : e.responses.length < depth)
    (deep' : e.responses.length < depth') : request depth e = request depth' e := by
  induction depth generalizing depth' e with
  | zero => exact absurd deep (Nat.not_lt_zero _)
  | succ depth ih =>
    obtain ⟨depth', rfl⟩ := Nat.exists_eq_add_one_of_ne_zero (Nat.ne_zero_of_lt deep')
    have placed : ∀ placement, place (request depth) placement e.takeDecision.2 =
        place (request depth') placement e.takeDecision.2 := by
      intro placement
      cases placement with
      | now =>
        -- a request made inside comes after a response was taken, so one depth less is still enough
        refine runTaskWith_congr _ fun later fewer => ?_
        simp only [takeDecision_eq] at fewer
        exact ih later (by omega) (by omega)
      | queue | drop => rfl
    simp only [request, placed]

/-- A depth above the number of responses is never used up, so each request is heard. -/
theorem request_deep (depth : Nat) (e : Emitter) (deep : e.responses.length < depth) :
    request depth e = request e.depth e :=
  request_congr e deep (Nat.lt_succ_self _)

end Emitter

end NestedCss
