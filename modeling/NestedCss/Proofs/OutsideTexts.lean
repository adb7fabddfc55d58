import NestedCss.Proofs.EmissionAccount

namespace NestedCss

namespace History

/-- Keeps account of whether a flush is under way, and of the texts that came in while none was. -/
def takeIn : Bool × List String → Occurrence → Bool × List String
  | (busy, texts), .submitted text => (busy, if busy then texts else texts ++ [text])
  | (_, texts), .started _ => (true, texts)
  | (_, texts), .finished _ _ => (false, texts)
  | (_, texts), .failed _ _ => (false, texts)
  | account, .queued => account
  | account, .unscheduled _ => account

/-- Whether a flush is under way after a history, and the texts that came in while none was. -/
def intake (history : History) : Bool × List String := history.foldl takeIn (false, [])

/-- The texts that came from outside, in order. -/
def outside (history : History) : List String := history.intake.2

/-- The account can be kept from any point, with the texts that came before in front. -/
theorem foldl_takeIn (history : History) (busy : Bool) (texts : List String) :
    history.foldl takeIn (busy, texts) =
      ((history.foldl takeIn (busy, [])).1, texts ++ (history.foldl takeIn (busy, [])).2) := by
  induction history generalizing busy texts with
  | nil => simp
  | cons occurrence rest ih =>
    have step : takeIn (busy, texts) occurrence =
        ((takeIn (busy, []) occurrence).1, texts ++ (takeIn (busy, []) occurrence).2) := by
      cases occurrence <;> cases busy <;> simp [takeIn]
    simp only [List.foldl_cons]
    rw [step, ih, ih (takeIn (busy, []) occurrence).1 (takeIn (busy, []) occurrence).2, List.append_assoc]

/-- After the end of a flush the account goes on as if it began anew. -/
theorem intake_append {history later : History} {busy : Bool} {texts more : List String}
    (account : history.intake = (false, texts)) (goesOn : later.intake = (busy, more)) :
    intake (history ++ later) = (busy, texts ++ more) := by
  simp only [intake, List.foldl_append] at account goesOn ⊢
  rw [account, foldl_takeIn, goesOn]

theorem intake_snoc {history : History} {account : Bool × List String} (before : history.intake = account)
    (occurrence : Occurrence) : intake (history ++ [occurrence]) = takeIn account occurrence := by
  simp only [intake, List.foldl_append, List.foldl_cons, List.foldl_nil] at before ⊢
  rw [before]

/-- Nothing that the sink submits during its flush counts as coming from outside. -/
theorem intake_flush (payload : String) (response : Response) (attached : Bool) :
    intake (.started payload :: response.reaching attached ++ [response.ending payload]) = (false, []) := by
  have inside : ∀ texts : List String, (texts.map Occurrence.submitted).foldl takeIn (true, []) = (true, []) := by
    intro texts
    induction texts with
    | nil => rfl
    | cons text rest ih => simpa [takeIn] using ih
  have reached : (response.reaching attached).foldl takeIn (true, []) = (true, []) := by
    unfold Response.reaching
    split
    · exact inside _
    · rfl
  simp only [intake, List.cons_append, List.foldl_cons, takeIn, List.foldl_append, reached, List.foldl_nil]
  cases failure : response.failure <;> simp [Response.ending, failure]

end History

/-- The journal of a run shows the texts that were submitted from outside. -/
theorem RunRecord.intake {start : Emitter} {texts : List String} {responses : List Response} {journal : History}
    (recorded : RunRecord start texts responses journal) :
    ∃ added, journal = start.journal ++ added ∧ History.intake added = (false, texts) := by
  induction recorded with
  | start => exact ⟨[], by simp, rfl⟩
  | submitted text _ ih =>
    obtain ⟨added, rfl, account⟩ := ih
    exact ⟨added ++ [.submitted text], by simp, History.intake_snoc account _⟩
  | queued _ ih =>
    obtain ⟨added, rfl, account⟩ := ih
    exact ⟨added ++ [.queued], by simp, History.intake_snoc account _⟩
  | unscheduled bytes _ ih =>
    obtain ⟨added, rfl, account⟩ := ih
    exact ⟨added ++ [.unscheduled bytes], by simp, History.intake_snoc account _⟩
  | @flush _ responses _ payload _ ih =>
    obtain ⟨added, rfl, account⟩ := ih
    have whole := History.intake_append account (History.intake_flush payload (responses.headD .plain) start.attached)
    rw [List.append_nil] at whole
    exact ⟨_, by simp, whole⟩

namespace Emitter

/-- An activity in the course of which just the given texts come from outside. -/
def Takes (activity : Activity) (texts : List String) : Prop :=
  ∀ e : Emitter, ∃ added, (activity e).1.journal = e.journal ++ added ∧ History.intake added = (false, texts)

/-- Submitting brings one text from outside, whatever the host makes of the request and whatever the sink
submits. -/
theorem submit_takes (text : String) : Takes (Emitter.submit text) [text] := by
  intro e
  have start : Recorded e [] e := ⟨rfl, .start⟩
  exact (start.submitWith (request_keepsRecord _) text).journal.intake

theorem runTask_takes : Takes Emitter.runTask [] := by
  intro e
  have start : Recorded e [] e := ⟨rfl, .start⟩
  exact (start.runTaskWith (request_keepsRecord _)).journal.intake

end Emitter

end NestedCss
