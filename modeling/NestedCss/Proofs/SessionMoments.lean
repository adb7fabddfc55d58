import NestedCss.Proofs.BenchRuns
import NestedCss.Proofs.QueueScenes

namespace NestedCss

theorem Emitter.refuse_resume (e : Emitter) (history : History) :
    e.refuse.resume history = (e.resume history).refuse := by
  unfold Emitter.refuse
  have same : (e.resume history).scheduler = e.scheduler := rfl
  rw [same]
  cases e.scheduler.phase with
  | pending => rw [← Emitter.resume_note]; rfl
  | idle | flushing => rfl

namespace Moment

/-- A moment after a history. -/
def resume (m : Moment) (history : History) : Moment := ⟨m.emitter.resume history, m.calls⟩

theorem begin_resume (asked : Emitter × Option Action) (calls : List Call) (history : History) :
    (begin asked calls).resume history = begin (asked.1.resume history, asked.2) calls := by
  obtain ⟨e, _ | _ | payload⟩ := asked
  · rfl
  · rfl
  · simp only [begin, resume, Emitter.resume_note]

theorem Next.resume {m m' : Moment} (next : m.Next m') (history : History) :
    (m.resume history).Next (m'.resume history) := by
  cases next with
  | submit e calls text =>
    rw [begin_resume, Emitter.resume_event]
    exact .submit (e.resume history) calls text
  | task e calls =>
    rw [begin_resume]
    exact .task (e.resume history) calls
  | queue e calls =>
    have queued := Next.queue (e.resume history) calls
    rwa [← Emitter.resume_note] at queued
  | accept e calls => exact .accept (e.resume history) calls
  | refuse e calls =>
    have refused := Next.refuse (e.resume history) calls
    rwa [← Emitter.refuse_resume] at refused
  | finish e calls payload remainder =>
    rw [begin_resume, Emitter.resume_event]
    exact .finish (e.resume history) calls payload remainder
  | fail e calls payload reason =>
    rw [begin_resume, Emitter.resume_event]
    exact .fail (e.resume history) calls payload reason
  | replan e calls decisions responses => exact .replan (e.resume history) calls decisions responses

theorem Leads.resume {m m' : Moment} (leads : m.Leads m') (history : History) :
    (m.resume history).Leads (m'.resume history) := by
  induction leads with
  | refl => exact .refl
  | tail _ next ih => exact ih.tail (next.resume history)

end Moment

namespace Dispatch

/-- The moment at which an emitter is while nothing is under way. -/
def moment? (d : Dispatch) (index : Nat) : Option Moment :=
  d.seats[index]?.map fun seat => ⟨seat.emitter.resume (d.history index), []⟩

/-- Seen from one of its emitters, a dispatch has gone through moments. -/
def Moves (d d' : Dispatch) (index : Nat) : Prop :=
  ∀ m, d.moment? index = some m → ∃ m', d'.moment? index = some m' ∧ m.Leads m'

variable {d d' d'' : Dispatch} {index : Nat}

theorem Moves.of_eq (same : d'.moment? index = d.moment? index) : d.Moves d' index :=
  fun m held => ⟨m, same.trans held, .refl⟩

theorem Moves.trans (first : d.Moves d' index) (second : d'.Moves d'' index) : d.Moves d'' index := by
  intro m held
  obtain ⟨m', held', leads⟩ := first m held
  obtain ⟨m'', held'', leads'⟩ := second m' held'
  exact ⟨m'', held'', leads.trans leads'⟩

/-- An emitter that is put back stands at the moment its activity ended at. -/
theorem moment?_settle {target : Nat} {held : Seat} (present : d.seats[target]? = some held) (seat : Seat) (e : Emitter)
    (index : Nat) : (d.settle target seat e).moment? index =
      if index = target then some ⟨e.resume (d.history target), []⟩ else d.moment? index := by
  simp only [moment?, seats_settle d present, history_settle]
  by_cases same : index = target
  · subst same
    simp [Emitter.resume]
  · simp [same]

/-- An emitter that is gone stays at its moment. -/
theorem moment?_remove (d : Dispatch) (target index : Nat) : (d.remove target).moment? index = d.moment? index := by
  rw [moment?, moment?, remove, update, List.getElem?_modify]
  cases d.seats[index]? with
  | none => rfl
  | some seat => split <;> rfl

/-- An activity that leads through moments moves its own emitter, and no other. -/
theorem moves_act {activity : Emitter.Activity}
    (leads : ∀ e calls, Moment.Leads ⟨e, calls⟩ ⟨(activity e).1, calls⟩) (target index : Nat) :
    d.Moves (d.act target activity).1 index := by
  rcases d.act_cases target activity with ⟨seat, present, -, same⟩ | ⟨-, same⟩
  · rw [same]
    by_cases here : index = target
    · subst here
      intro m held
      rw [moment?, present] at held
      cases held
      rw [moment?_settle present, if_pos rfl]
      exact ⟨_, rfl, (leads seat.emitter []).resume _⟩
    · exact .of_eq (by rw [moment?_settle present, if_neg here])
  · rw [same]
    exact .of_eq rfl

theorem moves_submit (d : Dispatch) (target index : Nat) (text : String) :
    d.Moves (d.submit target text).1 index :=
  moves_act (fun e calls => Emitter.leads_submitWith (Emitter.request_heard e.depth) text e calls) target index

/-- Running the tasks that wait moves each emitter they belong to. -/
theorem moves_runQueue (d : Dispatch) (queue index : Nat) : d.Moves (d.runQueue queue).1 index := by
  have keeps : ∀ {before after : Dispatch} {result : Except DeliveryError Unit}, d.Moves before index →
      next queue before = some (after, result) → d.Moves after index := by
    intro before after result so_far ran
    obtain ⟨target, rest, -, acted⟩ := next_eq_some ran
    have popped : before.Moves (before.withQueue queue rest) index := .of_eq rfl
    have leads : ∀ e calls, Moment.Leads ⟨e, calls⟩ ⟨(Emitter.runTask e).1, calls⟩ := fun e calls =>
      Emitter.leads_runTaskWith (Emitter.request_heard e.depth) e calls
    have task := moves_act (d := before.withQueue queue rest) leads target index
    rw [acted] at task
    exact (so_far.trans popped).trans task
  exact drain_keeps keeps (d.bound queue) (.of_eq rfl)

/-- Text that comes in at an emitter that is there is submitted at its moment. -/
theorem submit_leads {m : Moment} (held : d.moment? index = some m) (live : d.isLive index = true) (text : String) :
    ∃ m', (d.submit index text).1.moment? index = some m' ∧ (m.submit text).Leads m' := by
  rcases d.act_cases index (Emitter.submit text) with ⟨seat, present, -, same⟩ | ⟨gone, -⟩
  · obtain ⟨-, -, -, noFlush⟩ := Scheduler.submit_effect seat.emitter.scheduler text
    have heeded := Emitter.leads_heed (Emitter.request_heard seat.emitter.depth)
      ((seat.emitter.note (.submitted text)).apply (.submit text)) [] noFlush
    rw [moment?, present] at held
    cases held
    refine ⟨_, by rw [submit, same, moment?_settle present, if_pos rfl], ?_⟩
    have resumed := heeded.resume (d.history index)
    rw [Moment.begin_resume, Emitter.resume_event] at resumed
    exact resumed
  · cases present : d.seats[index]? with
    | none => simp [isLive, present] at live
    | some seat => simp [isLive, present, gone seat present] at live

end Dispatch

variable {B : Type}

namespace Session

/-- An instance of a session with its emitter, while nothing is under way. -/
def bench? (s : Session B) (index : Nat) : Option (Bench B) := do
  return ⟨← s.find? index, ← s.dispatch.moment? index⟩

theorem bench?_eq_some {s : Session B} {index : Nat} {b : Bench B} :
    s.bench? index = some b ↔ s.find? index = some b.content ∧ s.dispatch.moment? index = some b.moment := by
  obtain ⟨content, moment⟩ := b
  simp only [bench?]
  cases s.find? index <;> cases s.dispatch.moment? index <;> simp

/-- The rule set that a command gives to the instance of a number, if it gives one. -/
def ruleSet? (index : Nat) : Nat × Command B → Option (RuleSet B)
  | (target, .style node className) => if target = index then some ⟨node, className⟩ else none
  | _ => none

theorem moment?_notify (s : Session B) (notices : List Notice) (index : Nat) :
    (s.notify notices).dispatch.moment? index = s.dispatch.moment? index := by
  simp only [Dispatch.moment?, notify, Dispatch.history_notify]
  rfl

theorem Seated.moment? {s : Session B} {index : Nat} {i : Instance B} (seated : s.Seated)
    (held : s.find? index = some i) : ∃ m, s.dispatch.moment? index = some m := by
  have live := seated.live index (held ▸ rfl)
  cases present : s.dispatch.seats[index]? with
  | none => simp [Dispatch.isLive, present] at live
  | some seat => exact ⟨_, by rw [Dispatch.moment?, present]; rfl⟩

theorem moves_withInstance {α : Type} {s : Session B} {target index : Nat}
    {use : Instance B → Session B × Except SessionError α} (moves : ∀ i, s.dispatch.Moves (use i).1.dispatch index) :
    s.dispatch.Moves (s.withInstance target use).1.dispatch index := by
  unfold withInstance
  split
  · exact .of_eq rfl
  · exact moves _

section Compiling
variable [Expansion B]

theorem moves_style (s : Session B) (target index : Nat) (i : Instance B) (node : Node B) (className : Option String) :
    s.dispatch.Moves (s.style target i node className).1.dispatch index := by
  have noted : s.dispatch.Moves (s.notify (i.style node className).notices).dispatch index :=
    .of_eq (s.moment?_notify _ index)
  cases outcome : (i.style node className).outcome with
  | error e => simpa only [style, outcome] using noted
  | ok styled =>
    cases given : styled.text with
    | none =>
      simp only [style, outcome, given]
      exact noted
    | some text =>
      simp only [style, outcome, given]
      exact noted.trans (Dispatch.moves_submit _ target index text)

/-- Whatever is done with an instance, its emitter and the others go through moments. -/
theorem moves_perform (s : Session B) (target index : Nat) (command : Command B) :
    s.dispatch.Moves (s.perform target command).1.dispatch index := by
  cases command with
  | style node className => exact moves_withInstance fun i => s.moves_style target index i node className
  | compile node selector => exact moves_withInstance fun i => .of_eq (s.moment?_notify _ index)
  | submit text => exact moves_withInstance fun i => s.dispatch.moves_submit target index text
  | run =>
    refine moves_withInstance fun i => ?_
    unfold Session.run
    dsimp only
    split
    · exact s.dispatch.moves_runQueue (Setup.ownQueue target) index
    · exact .of_eq rfl
  | drain => exact s.dispatch.moves_runQueue Setup.commonQueue index
  | drop => exact .of_eq (s.dispatch.moment?_remove target index)
  | describe => exact moves_withInstance fun i => .of_eq rfl

/-- What an instance submits for a rule set is what its emitter is brought. -/
theorem style_leads {s : Session B} {index : Nat} {i : Instance B} {m : Moment}
    (held : s.dispatch.moment? index = some m) (live : s.dispatch.isLive index = true) (node : Node B)
    (className : Option String) : ∃ m', (s.style index i node className).1.dispatch.moment? index = some m' ∧
      ((i.submission node className).foldl Moment.submit m).Leads m' := by
  have noted := (s.moment?_notify (i.style node className).notices index).trans held
  cases outcome : (i.style node className).outcome with
  | error e =>
    simp only [style, Instance.submission, outcome]
    exact ⟨m, noted, .refl⟩
  | ok styled =>
    cases given : styled.text with
    | none =>
      simp only [style, Instance.submission, outcome, given]
      exact ⟨m, noted, .refl⟩
    | some text =>
      simp only [style, Instance.submission, outcome, given]
      exact Dispatch.submit_leads noted live text

variable {s : Session B} {index : Nat} {b : Bench B}

/-- A command is a run of the instance, in which it is given the rule set of the command. -/
theorem Seated.bench_perform (seated : s.Seated) (held : s.bench? index = some b) {target : Nat} {command : Command B}
    (kept : (target, command) ≠ (index, .drop)) : ∃ texts later,
      (s.perform target command).1.bench? index = some later ∧
        b.Run (ruleSet? index (target, command)).toList texts later := by
  obtain ⟨found, moment⟩ := bench?_eq_some.mp held
  have after := find?_perform s kept
  rw [found, Option.map_some] at after
  have quiet : (if index = target then b.content.after command else b.content) = b.content →
      ruleSet? index (target, command) = none → ∃ texts later,
        (s.perform target command).1.bench? index = some later ∧
          b.Run (ruleSet? index (target, command)).toList texts later := by
    intro same nothing
    obtain ⟨m, there, leads⟩ := s.moves_perform target index command b.moment moment
    rw [nothing]
    exact ⟨[], { b with moment := m }, bench?_eq_some.mpr ⟨same ▸ after, there⟩, Bench.Run.start.leads leads⟩
  cases command with
  | style node className =>
    by_cases here : target = index
    · subst here
      obtain ⟨m, there, leads⟩ := style_leads (i := b.content) moment (seated.live target (found ▸ rfl)) node className
      have begun : b.Run [] [] b := .start
      have given := (begun.give ⟨node, className⟩).leads leads
      rw [if_pos rfl] at after
      have styled : (s.perform target (.style node className)).1.dispatch.moment? target = some m := by
        rw [Session.perform, Session.withInstance, found]
        exact there
      have here : (ruleSet? target (target, Command.style node className)).toList = [⟨node, className⟩] := by
        simp [ruleSet?]
      rw [here]
      exact ⟨_, ⟨b.content.styled node className, m⟩, bench?_eq_some.mpr ⟨after, styled⟩, given⟩
    · exact quiet (if_neg (Ne.symm here)) (by simp [ruleSet?, here])
  | compile | submit | run | drain | drop | describe => exact quiet (ite_self _) rfl

/-- An instance that is not dropped runs as its rule sets come in, whatever is done with the others. -/
theorem Seated.bench_performAll (seated : s.Seated) (held : s.bench? index = some b)
    {commands : List (Nat × Command B)} (kept : (index, .drop) ∉ commands) : ∃ texts later,
      (s.performAll commands).bench? index = some later ∧ b.Run (commands.filterMap (ruleSet? index)) texts later := by
  induction commands generalizing s b with
  | nil => exact ⟨[], b, held, .start⟩
  | cons command rest ih =>
    rw [List.mem_cons, not_or] at kept
    obtain ⟨here, later⟩ := kept
    obtain ⟨texts, next, held', ran⟩ := seated.bench_perform held (Ne.symm here)
    obtain ⟨more, last, found, goesOn⟩ := ih (seated.perform command.1 command.2).seated held' later
    refine ⟨texts ++ more, last, found, ?_⟩
    have split : (command :: rest).filterMap (ruleSet? index) =
        (ruleSet? index command).toList ++ rest.filterMap (ruleSet? index) := by
      cases given : ruleSet? index command <;> simp [given]
    rw [split]
    exact ran.trans goesOn

end Compiling

end Session

end NestedCss
