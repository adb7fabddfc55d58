import Mathlib.Data.List.DropRight
import NestedCss.Proofs.EmissionRecord

namespace NestedCss

namespace Occurrence

def submission? : Occurrence → Option String
  | submitted text => some text
  | _ => none

def payload? : Occurrence → Option String
  | started payload => some payload
  | _ => none

/-- The payload of a flush that has ended, and what it left: the remainder, or all of it if the sink
has failed. -/
def ending? : Occurrence → Option (String × String)
  | finished payload remainder => some (payload, remainder.getD "")
  | failed payload _ => some (payload, payload)
  | _ => none

end Occurrence

/-- What has happened at an emitter, oldest first. -/
abbrev History := List Occurrence

namespace History

def payloads (history : History) : List String := history.filterMap Occurrence.payload?

def endings (history : History) : List (String × String) := history.filterMap Occurrence.ending?

/-- What the last flush left; nothing if there was none. -/
def left (history : History) : String := (history.endings.getLast?.map Prod.snd).getD ""

/-- The texts submitted since the last flush began, in order. -/
def since (history : History) : String :=
  String.join ((history.rtakeWhile fun occurrence => occurrence.payload?.isNone).filterMap Occurrence.submission?)

/-- Every flush that has begun has ended. -/
def Settled (history : History) : Prop := history.endings.map Prod.fst = history.payloads

/-- Every flush began when the one before had ended, with what that one left and what was submitted
since it began. -/
def Exact (history : History) : Prop :=
  ∀ before payload after, history = before ++ .started payload :: after →
    Settled before ∧ payload = before.left ++ before.since

theorem exact_nil : Exact [] := by
  intro before payload after split
  simp at split

/-- Of all that can happen, only the start of a flush has to be accounted for. -/
theorem Exact.snoc {history : History} {occurrence : Occurrence} (exact : history.Exact)
    (starts : ∀ payload, occurrence = .started payload → history.Settled ∧ payload = history.left ++ history.since) :
    Exact (history ++ [occurrence]) := by
  intro before payload after split
  rcases List.eq_nil_or_concat after with rfl | ⟨between, last, rfl⟩
  · obtain ⟨rfl, same⟩ := List.append_inj' split rfl
    exact starts payload (List.singleton_inj.mp same)
  · rw [List.concat_eq_append, ← List.cons_append, ← List.append_assoc] at split
    obtain ⟨rfl, _⟩ := List.append_inj' split rfl
    exact exact before payload between rfl

variable (history : History)

@[simp] theorem payloads_snoc (occurrence : Occurrence) :
    payloads (history ++ [occurrence]) = history.payloads ++ occurrence.payload?.toList := by
  cases occurrence <;> simp [payloads, Occurrence.payload?]

@[simp] theorem endings_snoc (occurrence : Occurrence) :
    endings (history ++ [occurrence]) = history.endings ++ occurrence.ending?.toList := by
  cases occurrence <;> simp [endings, Occurrence.ending?]

theorem left_snoc (occurrence : Occurrence) :
    left (history ++ [occurrence]) = (occurrence.ending?.map Prod.snd).getD history.left := by
  cases occurrence <;> simp [left, Occurrence.ending?]

theorem since_snoc_started (payload : String) : since (history ++ [.started payload]) = "" := by
  simp [since, Occurrence.payload?]

theorem since_snoc {occurrence : Occurrence} (noStart : occurrence.payload? = none) :
    since (history ++ [occurrence]) = history.since ++ occurrence.submission?.getD "" := by
  have goesOn : (occurrence.payload?.isNone) = true := by simp [noStart]
  simp only [since, List.rtakeWhile_concat, goesOn, if_true, List.filterMap_append, String.join_append]
  cases occurrence <;> simp [List.filterMap, Occurrence.submission?]

/-- What only the host does leaves the account as it is. -/
theorem account_snoc {occurrence : Occurrence} (noStart : occurrence.payload? = none)
    (noEnding : occurrence.ending? = none) (noText : occurrence.submission? = none) :
    payloads (history ++ [occurrence]) = history.payloads ∧ endings (history ++ [occurrence]) = history.endings ∧
      left (history ++ [occurrence]) = history.left ∧ since (history ++ [occurrence]) = history.since := by
  simp [left_snoc, since_snoc history noStart, noStart, noEnding, noText]

end History

namespace Moment

/-- The sink is not at work. -/
structure Calm (m : Moment) : Prop where
  noSink : ∀ payload, .sink payload ∉ m.calls
  phase : m.emitter.scheduler.phase ≠ .flushing
  settled : History.Settled m.emitter.journal
  buffer : m.emitter.scheduler.buffer = History.left m.emitter.journal ++ History.since m.emitter.journal

/-- The sink is at work on a payload. No call below this one is to the sink. -/
structure Busy (m : Moment) (payload : String) : Prop where
  calls : ∃ rest, m.calls = .sink payload :: rest ∧ ∀ other, .sink other ∉ rest
  phase : m.emitter.scheduler.phase = .flushing
  opened : History.payloads m.emitter.journal = (History.endings m.emitter.journal).map Prod.fst ++ [payload]
  buffer : m.emitter.scheduler.buffer = History.since m.emitter.journal

/-- The account is right up to now, and the emitter is in order. -/
structure Sound (m : Moment) : Prop where
  exact : History.Exact m.emitter.journal
  order : Calm m ∨ ∃ payload, Busy m payload

/-- While the sink is at work, its call is the innermost one: what it does to the emitter meanwhile asks nothing
of the host. -/
theorem Busy.top {e : Emitter} {calls : List Call} {call : Call} {payload : String}
    (busy : Busy ⟨e, call :: calls⟩ payload) : call = .sink payload ∧ ∀ other, .sink other ∉ calls := by
  obtain ⟨rest, split, noSink⟩ := busy.calls
  cases split
  exact ⟨rfl, noSink⟩

theorem Calm.noSink_host {m : Moment} (calm : Calm m) (payload : String) : .sink payload ∉ Call.host :: m.calls := by
  simpa using calm.noSink payload

/-- The host can be asked for a flush at once, since asking it leaves the account as it is. -/
theorem Calm.begin {asked : Emitter × Option Action} {calls : List Call} (calm : Calm ⟨asked.1, calls⟩)
    (exact : History.Exact asked.1.journal) (noFlush : ∀ payload, asked.2 ≠ some (.flush payload)) :
    Sound (begin asked calls) := by
  obtain ⟨e, _ | _ | payload⟩ := asked
  · exact ⟨exact, .inl calm⟩
  · exact ⟨exact, .inl ⟨calm.noSink_host, calm.phase, calm.settled, calm.buffer⟩⟩
  · exact absurd rfl (noFlush payload)

/-- Text that comes in is taken up in the account, whoever is at work. -/
theorem Sound.submit {e : Emitter} {calls : List Call} (sound : Sound ⟨e, calls⟩) (text : String) :
    Sound (Moment.begin ((e.note (.submitted text)).apply (.submit text)) calls) := by
  obtain ⟨buffer, phase, quiet, noFlush⟩ := Scheduler.submit_effect e.scheduler text
  have exact : History.Exact (e.journal ++ [.submitted text]) := sound.exact.snoc (by simp)
  have since : History.since (e.journal ++ [.submitted text]) = History.since e.journal ++ text :=
    History.since_snoc e.journal rfl
  have left : History.left (e.journal ++ [.submitted text]) = History.left e.journal := History.left_snoc e.journal _
  have payloads := History.payloads_snoc e.journal (.submitted text)
  have endings := History.endings_snoc e.journal (.submitted text)
  simp only [Occurrence.payload?, Occurrence.ending?, Option.toList_none, List.append_nil] at payloads endings
  rcases sound.order with calm | ⟨payload, busy⟩
  · refine Calm.begin ⟨calm.noSink, fun flushing => calm.phase (phase.mp flushing), ?_, ?_⟩ exact noFlush
    · exact (congrArg _ endings).trans (calm.settled.trans payloads.symm)
    · refine buffer.trans ?_
      rw [calm.buffer, String.append_assoc]
      exact congrArg₂ _ left.symm since.symm
  · have asked : (e.note (.submitted text)).apply (.submit text) =
        ({ e.note (.submitted text) with scheduler := (e.scheduler.handle (.submit text)).1 }, none) :=
      Prod.ext rfl (quiet busy.phase)
    rw [asked]
    refine ⟨exact, .inr ⟨payload, busy.calls, phase.mpr busy.phase, ?_, ?_⟩⟩
    · exact payloads.trans (busy.opened.trans (congrArg (fun ended => ended.map Prod.fst ++ [payload]) endings.symm))
    · exact (buffer.trans (congrArg (· ++ text) busy.buffer)).trans since.symm

/-- A task of a pending emitter hands the whole buffer to the sink, which is what was left and what came in since.
At any other time a task changes nothing. -/
theorem Sound.task {e : Emitter} {calls : List Call} (sound : Sound ⟨e, calls⟩) :
    Sound (Moment.begin (e.apply .tick) calls) := by
  rcases Scheduler.tick_effect e.scheduler with ⟨pending, ticked⟩ | ⟨quiet, buffer, phase⟩
  · have asked : e.apply .tick =
        ({ e with scheduler := ⟨"", .flushing, false⟩ }, some (.flush e.scheduler.buffer)) := by
      simp only [Emitter.apply, ticked]
    have calm : Calm ⟨e, calls⟩ := by
      rcases sound.order with calm | ⟨payload, busy⟩
      · exact calm
      · rw [busy.phase] at pending
        cases pending
    rw [asked]
    refine ⟨sound.exact.snoc fun payload same => ?_, .inr ⟨e.scheduler.buffer, ?_⟩⟩
    · cases same
      exact ⟨calm.settled, calm.buffer⟩
    · refine ⟨⟨calls, rfl, calm.noSink⟩, rfl, ?_, (History.since_snoc_started e.journal _).symm⟩
      refine (History.payloads_snoc e.journal _).trans ?_
      rw [← calm.settled]
      exact congrArg (fun ended => List.map Prod.fst ended ++ [e.scheduler.buffer])
        ((History.endings_snoc e.journal (.started e.scheduler.buffer)).trans (List.append_nil _)).symm
  · have asked : e.apply .tick = ({ e with scheduler := (e.scheduler.handle .tick).1 }, none) := Prod.ext rfl quiet
    rw [asked]
    rcases sound.order with calm | ⟨payload, busy⟩
    · exact ⟨sound.exact, .inl ⟨calm.noSink, fun flushing => calm.phase (phase.mp flushing), calm.settled,
        buffer.trans calm.buffer⟩⟩
    · exact ⟨sound.exact, .inr ⟨payload, busy.calls, phase.mpr busy.phase, busy.opened, buffer.trans busy.buffer⟩⟩

theorem Sound.calm {e : Emitter} {calls : List Call} (sound : Sound ⟨e, .host :: calls⟩) : Calm ⟨e, calls⟩ := by
  rcases sound.order with calm | ⟨payload, busy⟩
  · exact ⟨fun other inside => calm.noSink other (List.mem_cons_of_mem _ inside), calm.phase, calm.settled, calm.buffer⟩
  · cases busy.top.1

theorem Calm.note {e : Emitter} {calls : List Call} (calm : Calm ⟨e, calls⟩) (occurrence : Occurrence)
    (noStart : occurrence.payload? = none) (noEnding : occurrence.ending? = none)
    (noText : occurrence.submission? = none) : Calm ⟨e.note occurrence, calls⟩ := by
  obtain ⟨payloads, endings, left, since⟩ := History.account_snoc e.journal noStart noEnding noText
  refine ⟨calm.noSink, calm.phase, ?_, ?_⟩
  · exact (congrArg _ endings).trans (calm.settled.trans payloads.symm)
  · exact calm.buffer.trans (congrArg₂ _ left.symm since.symm)

theorem Sound.queue {e : Emitter} {calls : List Call} (sound : Sound ⟨e, .host :: calls⟩) :
    Sound ⟨e.note .queued, .host :: calls⟩ := by
  have calm := sound.calm.note .queued rfl rfl rfl
  exact ⟨sound.exact.snoc (by simp), .inl ⟨calm.noSink_host, calm.phase, calm.settled, calm.buffer⟩⟩

/-- A refused request keeps the buffer, and so the account. -/
theorem Sound.refuse {e : Emitter} {calls : List Call} (sound : Sound ⟨e, .host :: calls⟩) :
    Sound ⟨e.refuse, calls⟩ := by
  obtain ⟨buffer, phase⟩ := Scheduler.unscheduled_effect e.scheduler
  -- Only a pending request leaves a note; both forms end in the same step of the scheduler.
  have refused : ∀ noted : Emitter, noted.scheduler = e.scheduler → Calm ⟨noted, calls⟩ →
      Calm ⟨(noted.apply .unscheduled).1, calls⟩ := by
    intro noted same calm
    refine ⟨calm.noSink, ?_, calm.settled, ?_⟩
    · simp only [Emitter.apply, Scheduler.handle, same]
      exact fun flushing => calm.phase (same ▸ phase.mp flushing)
    · simp only [Emitter.apply, Scheduler.handle, same]
      exact (buffer.trans (congrArg Scheduler.buffer same.symm)).trans calm.buffer
  unfold Emitter.refuse
  split
  · exact ⟨sound.exact.snoc (by simp), .inl (refused _ rfl (sound.calm.note _ rfl rfl rfl))⟩
  · exact ⟨sound.exact, .inl (refused _ rfl sound.calm)⟩

/-- The end of a flush closes the account of its payload. -/
theorem Busy.ended {e : Emitter} {calls : List Call} {payload : String} (busy : Busy ⟨e, calls⟩ payload)
    (occurrence : Occurrence) {remainder : String} (ending : occurrence.ending? = some (payload, remainder)) :
    History.Settled (e.journal ++ [occurrence]) ∧ History.left (e.journal ++ [occurrence]) = remainder ∧
      History.since (e.journal ++ [occurrence]) = e.scheduler.buffer := by
  have noStart : occurrence.payload? = none := by cases occurrence <;> simp_all [Occurrence.ending?, Occurrence.payload?]
  have noText : occurrence.submission? = none := by
    cases occurrence <;> simp_all [Occurrence.ending?, Occurrence.submission?]
  refine ⟨?_, ?_, ?_⟩
  · have opened := busy.opened
    simp only [History.Settled, History.payloads_snoc, History.endings_snoc, noStart, ending] at opened ⊢
    simp [opened]
  · simp [History.left_snoc, ending]
  · simpa [History.since_snoc e.journal noStart, noText] using busy.buffer.symm

theorem Sound.busy {e : Emitter} {calls : List Call} {payload : String} (sound : Sound ⟨e, .sink payload :: calls⟩) :
    Busy ⟨e, .sink payload :: calls⟩ payload ∧ ∀ other, .sink other ∉ calls := by
  rcases sound.order with calm | ⟨held, busy⟩
  · exact absurd (List.mem_cons_self ..) (calm.noSink payload)
  · obtain ⟨same, noSink⟩ := busy.top
    cases same
    exact ⟨busy, noSink⟩

/-- The remainder goes in front of what came in during the flush, and this is what the account says of it. -/
theorem Sound.finish {e : Emitter} {calls : List Call} {payload : String} (sound : Sound ⟨e, .sink payload :: calls⟩)
    (remainder : Option String) :
    Sound (Moment.begin ((e.note (.finished payload remainder)).apply (.flushed remainder)) calls) := by
  obtain ⟨busy, noSink⟩ := sound.busy
  obtain ⟨settled, left, since⟩ := busy.ended (.finished payload remainder) rfl
  obtain ⟨buffer, phase, noFlush⟩ := Scheduler.flushed_effect e.scheduler remainder
  refine Calm.begin ⟨noSink, phase, settled, ?_⟩ (sound.exact.snoc (by simp)) noFlush
  exact buffer.trans (congrArg₂ _ left.symm since.symm)

/-- A failed payload goes back whole in front of what came in during the flush, and the account says the same. -/
theorem Sound.fail {e : Emitter} {calls : List Call} {payload : String} (sound : Sound ⟨e, .sink payload :: calls⟩)
    (reason : String) :
    Sound (Moment.begin ((e.note (.failed payload reason)).apply (.failed payload)) calls) := by
  obtain ⟨busy, noSink⟩ := sound.busy
  obtain ⟨settled, left, since⟩ := busy.ended (.failed payload reason) rfl
  refine Calm.begin ⟨noSink, by simp [Emitter.apply, Scheduler.handle, Scheduler.failed], settled, ?_⟩
    (sound.exact.snoc (by simp)) (by simp [Emitter.apply, Scheduler.handle])
  exact congrArg₂ (· ++ ·) left.symm since.symm

/-- Every step keeps the account right. -/
theorem Sound.next {m m' : Moment} (sound : Sound m) (next : Next m m') : Sound m' := by
  cases next with
  | submit e calls text => exact sound.submit text
  | task e calls => exact sound.task
  | queue e calls => exact sound.queue
  | accept e calls => exact ⟨sound.exact, .inl sound.calm⟩
  | refuse e calls => exact sound.refuse
  | finish e calls payload remainder => exact sound.finish remainder
  | fail e calls payload reason => exact sound.fail reason
  | replan e calls decisions responses =>
    refine ⟨sound.exact, ?_⟩
    rcases sound.order with calm | ⟨payload, busy⟩
    · exact .inl ⟨calm.noSink, calm.phase, calm.settled, calm.buffer⟩
    · exact .inr ⟨payload, busy.calls, busy.phase, busy.opened, busy.buffer⟩

theorem Sound.leads {m m' : Moment} (sound : Sound m) (leads : Leads m m') : Sound m' := by
  induction leads with
  | refl => exact sound
  | tail _ next ih => exact ih.next next

theorem sound_initial {e : Emitter} (fresh : e.scheduler = .initial) (unused : e.journal = []) : Sound ⟨e, []⟩ := by
  refine ⟨unused ▸ History.exact_nil, .inl ⟨by simp, ?_, ?_, ?_⟩⟩ <;>
    simp [fresh, unused, Scheduler.initial, History.Settled, History.payloads, History.endings, History.left,
      History.since]

end Moment

/-- Emission neither loses nor repeats nor reorders text, whatever the partners of an emitter do and
whenever its tasks run. The journal of a run is complete, and at every moment it shows that each
payload was what the flush before it had left, followed by what was submitted since. -/
theorem emission_is_exact (start : Emitter) (fresh : start.scheduler = .initial) (unused : start.journal = []) :
    (∀ operations, Emitter.Recorded start (operations.filterMap Emitter.Operation.text?) (start.run operations) ∧
      Moment.Leads ⟨start, []⟩ ⟨start.run operations, []⟩) ∧
    ∀ m : Moment, Moment.Leads ⟨start, []⟩ m →
      History.Exact m.emitter.journal ∧
      ((∀ payload, .sink payload ∉ m.calls) → History.Settled m.emitter.journal ∧
        m.emitter.scheduler.buffer = History.left m.emitter.journal ++ History.since m.emitter.journal) := by
  refine ⟨fun operations => ⟨Emitter.recorded_run start operations, Emitter.leads_run operations start []⟩, ?_⟩
  intro m leads
  have sound := (Moment.sound_initial fresh unused).leads leads
  refine ⟨sound.exact, fun noSink => ?_⟩
  rcases sound.order with calm | ⟨payload, busy⟩
  · exact ⟨calm.settled, calm.buffer⟩
  · obtain ⟨rest, split, -⟩ := busy.calls
    exact absurd (split ▸ List.mem_cons_self ..) (noSink payload)

/-- A flush at once, during which the sink submits and after which the request for another one is
refused; then a late task, whose flush fails. -/
theorem emission_is_exact_reentrant : ∃ start : Emitter, ∃ operations : List Emitter.Operation,
    History.payloads (start.run operations).journal = ["a", "rbce"] ∧
      (start.run operations).scheduler.buffer = "rbcedf" ∧
      (start.run operations).scheduler.buffer =
        History.left (start.run operations).journal ++ History.since (start.run operations).journal := by
  refine ⟨⟨.initial, [⟨.now, .candid⟩, ⟨.queue, .failing "full"⟩], .queue,
    [⟨["b", "c"], none, some "r"⟩, ⟨["d"], some "down", none⟩], true, []⟩,
    [.submit "a", .runTask, .submit "e", .runTask, .submit "f"], rfl, rfl, ?_⟩
  obtain ⟨runs, moments⟩ := emission_is_exact ⟨.initial, [⟨.now, .candid⟩, ⟨.queue, .failing "full"⟩], .queue,
    [⟨["b", "c"], none, some "r"⟩, ⟨["d"], some "down", none⟩], true, []⟩ rfl rfl
  exact ((moments _ (runs _).2).2 fun payload => List.not_mem_nil).2

end NestedCss
