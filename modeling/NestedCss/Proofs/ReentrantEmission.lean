import NestedCss.Proofs.EmissionAccount
import NestedCss.Proofs.RequestDepth

namespace NestedCss

/-- Every payload that the sink was handed held some text. -/
def History.Filled (history : History) : Prop := ∀ payload ∈ history.payloads, payload ≠ ""

theorem History.Filled.snoc {history : History} (filled : history.Filled) {occurrence : Occurrence}
    (start : ∀ payload, occurrence = .started payload → payload ≠ "") : History.Filled (history ++ [occurrence]) := by
  intro payload member
  rw [payloads_snoc, List.mem_append] at member
  rcases member with earlier | last
  · exact filled payload earlier
  · cases occurrence <;> simp_all [Occurrence.payload?]

namespace Moment

theorem scheduler_begin (asked : Emitter × Option Action) (calls : List Call) :
    (begin asked calls).emitter.scheduler = asked.1.scheduler := by
  obtain ⟨e, _ | _ | payload⟩ := asked <;> rfl

/-- What is known at every moment of a run. -/
structure Secure (m : Moment) : Prop where
  sound : Sound m
  orderly : m.emitter.scheduler.Orderly
  filled : History.Filled m.emitter.journal

/-- The scheduler stays in order, whatever event it takes. -/
theorem orderly_begin (e : Emitter) (orderly : e.scheduler.Orderly) (event : Event) (calls : List Call) :
    (begin (e.apply event) calls).emitter.scheduler.Orderly :=
  scheduler_begin (e.apply event) calls ▸ orderly.handle event

/-- A flush is begun with some text only, for an empty buffer asks for none. -/
theorem filled_begin {e : Emitter} (filled : History.Filled e.journal) (event : Event) (calls : List Call) :
    History.Filled (begin (e.apply event) calls).emitter.journal := by
  cases asked : (e.scheduler.handle event).2 with
  | none => simpa [Emitter.apply, asked, begin] using filled
  | some action =>
    cases action with
    | schedule => simpa [Emitter.apply, asked, begin] using filled
    | flush payload =>
      have waits := Scheduler.flush_ne_empty asked
      have started : History.Filled (e.journal ++ [.started payload]) := filled.snoc (by simpa using waits)
      simpa [Emitter.apply, asked, begin, Emitter.note] using started

/-- What is known at a moment is known at the next one. -/
theorem Secure.next {m m' : Moment} (secure : Secure m) (next : Next m m') : Secure m' := by
  refine ⟨secure.sound.next next, ?_, ?_⟩
  · have orderly := secure.orderly
    cases next with
    | submit e calls text => exact orderly_begin (e.note _) orderly _ calls
    | task e calls => exact orderly_begin e orderly _ calls
    | queue | accept | replan => exact orderly
    | refuse e calls =>
      unfold Emitter.refuse
      split <;> exact orderly.handle .unscheduled
    | finish e calls payload remainder => exact orderly_begin (e.note _) orderly _ calls
    | fail e calls payload reason => exact orderly_begin (e.note _) orderly _ calls
  · have filled := secure.filled
    cases next with
    | submit e calls text => exact filled_begin (filled.snoc (by simp)) _ calls
    | task e calls => exact filled_begin filled _ calls
    | queue e calls => exact filled.snoc (by simp)
    | accept | replan => exact filled
    | refuse e calls =>
      unfold Emitter.refuse
      split
      · exact filled.snoc (by simp)
      · exact filled
    | finish e calls payload remainder => exact filled_begin (filled.snoc (by simp)) _ calls
    | fail e calls payload reason => exact filled_begin (filled.snoc (by simp)) _ calls

theorem Secure.leads {m m' : Moment} (secure : Secure m) (leads : Leads m m') : Secure m' := by
  induction leads with
  | refl => exact secure
  | tail _ next ih => exact ih.next next

theorem secure_initial {e : Emitter} (fresh : e.scheduler = .initial) (unused : e.journal = []) : Secure ⟨e, []⟩ := by
  refine ⟨sound_initial fresh unused, ?_, ?_⟩
  · rw [fresh]
    exact Scheduler.orderly_initial
  · simp [History.Filled, History.payloads, unused]

/-- The sink is at work exactly while its call is under way. -/
theorem Sound.flushing_iff {m : Moment} (sound : Sound m) :
    m.emitter.scheduler.phase = .flushing ↔ ∃ payload, .sink payload ∈ m.calls := by
  rcases sound.order with calm | ⟨payload, busy⟩
  · have noSink : ¬∃ payload, .sink payload ∈ m.calls := fun ⟨payload, inside⟩ => calm.noSink payload inside
    exact iff_of_false calm.phase noSink
  · obtain ⟨rest, calls, -⟩ := busy.calls
    exact iff_of_true busy.phase ⟨payload, calls ▸ List.mem_cons_self ..⟩

/-- When the sink is entered, no other call to it is under way, and it is handed some text. -/
theorem Secure.enter {m : Moment} {calls : List Call} {payload : String} (secure : Secure m)
    (entered : m.calls = .sink payload :: calls) : (∀ other, .sink other ∉ calls) ∧ payload ≠ "" := by
  rcases secure.sound.order with calm | ⟨held, busy⟩
  · have inside : .sink payload ∈ m.calls := entered ▸ List.mem_cons_self ..
    exact absurd inside (calm.noSink payload)
  · obtain ⟨rest, split, noSink⟩ := busy.calls
    obtain ⟨same, rfl⟩ := List.cons.inj (entered.symm.trans split)
    cases same
    refine ⟨noSink, secure.filled payload ?_⟩
    rw [busy.opened]
    simp

/-- A task that runs when no flush is pending is not noticed. -/
theorem begin_late_task {m : Moment} (late : m.emitter.scheduler.phase ≠ .pending) :
    begin (m.emitter.apply .tick) m.calls = m := by
  have nothing := Scheduler.tick_of_not_pending late
  simp only [Emitter.apply, nothing, begin]

end Moment

/-- An emitter is safe under re-entrancy. Every run goes through moments, with each request heard however
deep it is made. At each of them the flush under way is known from the phase, a pending flush has
text to take, the sink is entered only from outside and with some text, and a task that runs too late
changes nothing. -/
theorem emission_is_reentrant (start : Emitter) (fresh : start.scheduler = .initial) (unused : start.journal = []) :
    (∀ operations, Moment.Leads ⟨start, []⟩ ⟨start.run operations, []⟩) ∧
    (∀ depth e, e.responses.length < depth → Emitter.request depth e = Emitter.request e.depth e) ∧
    ∀ m : Moment, Moment.Leads ⟨start, []⟩ m →
      (m.emitter.scheduler.phase = .flushing ↔ ∃ payload, .sink payload ∈ m.calls) ∧
      (m.emitter.scheduler.phase = .pending → m.emitter.scheduler.buffer ≠ "") ∧
      History.Filled m.emitter.journal ∧
      (∀ m' payload, Moment.Next m m' → m'.calls = .sink payload :: m.calls →
        (∀ other, .sink other ∉ m.calls) ∧ payload ≠ "") ∧
      (m.emitter.scheduler.phase ≠ .pending →
        Moment.begin (m.emitter.apply .tick) m.calls = m ∧ m.emitter.runTask = (m.emitter, .ok ())) := by
  refine ⟨fun operations => Emitter.leads_run operations start [], Emitter.request_deep, ?_⟩
  intro m leads
  have secure := (Moment.secure_initial fresh unused).leads leads
  refine ⟨secure.sound.flushing_iff, secure.orderly.pending, secure.filled, ?_, fun late => ?_⟩
  · intro m' payload next entered
    exact (secure.next next).enter entered
  · have nothing := Scheduler.tick_of_not_pending late
    refine ⟨Moment.begin_late_task late, ?_⟩
    simp only [Emitter.runTask, Emitter.runTaskWith, Emitter.apply, nothing]

/-- While the sink consumes a first batch it submits more; the request for another flush is refused, so
that its task comes too late. -/
theorem emission_is_reentrant_refused : ∃ start : Emitter, ∃ operations : List Emitter.Operation,
    History.payloads (start.run operations).journal = ["a"] ∧
      (start.run operations).scheduler.phase = .idle ∧ (start.run operations).scheduler.buffer = "rb" ∧
      (start.run operations).runTask = (start.run operations, .ok ()) := by
  refine ⟨⟨.initial, [⟨.now, .candid⟩, ⟨.queue, .failing "full"⟩], .queue, [⟨["b"], none, some "r"⟩], true, []⟩,
    [.submit "a"], rfl, rfl, rfl, ?_⟩
  obtain ⟨runs, -, moments⟩ := emission_is_reentrant
    ⟨.initial, [⟨.now, .candid⟩, ⟨.queue, .failing "full"⟩], .queue, [⟨["b"], none, some "r"⟩], true, []⟩ rfl rfl
  obtain ⟨-, -, -, -, late⟩ := moments _ (runs [.submit "a"])
  exact (late (by decide)).2

end NestedCss
