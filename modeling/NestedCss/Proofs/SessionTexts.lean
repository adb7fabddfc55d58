import NestedCss.Proofs.DispatchSteps
import NestedCss.Proofs.Draining
import NestedCss.Proofs.InstanceStability
import NestedCss.Proofs.OutsideTexts

namespace NestedCss

namespace Dispatch

/-- The emitter of a number is there. -/
def isLive (d : Dispatch) (index : Nat) : Bool := d.seats[index]?.any Seat.live

/-- No activity is under way: everything is in the common journal, and every flush has ended. -/
structure Settled (d : Dispatch) : Prop where
  journals : ∀ seat ∈ d.seats, seat.emitter.journal = []
  ended : ∀ index, (d.history index).intake.1 = false

/-- A dispatch has become another one, with the same emitters, while just the given texts came to them
from outside. -/
structure Took (d : Dispatch) (texts : Nat → List String) (d' : Dispatch) : Prop where
  settled : d'.Settled
  length : d'.seats.length = d.seats.length
  live : ∀ index, d'.isLive index = d.isLive index
  outside : ∀ index, (d'.history index).outside = (d.history index).outside ++ texts index

variable {d d' d'' : Dispatch} {texts more : Nat → List String}

theorem Took.nothing (settled : d.Settled) : Took d (fun _ => []) d :=
  ⟨settled, rfl, fun _ => rfl, fun _ => (List.append_nil _).symm⟩

theorem Took.trans (first : Took d texts d') (second : Took d' more d'') :
    Took d (fun index => texts index ++ more index) d'' where
  settled := second.settled
  length := second.length.trans first.length
  live index := (second.live index).trans (first.live index)
  outside index := by rw [second.outside, first.outside, List.append_assoc]

theorem Took.then_nothing (first : Took d texts d') (second : Took d' (fun _ => []) d'') : Took d texts d'' := by
  have both := first.trans second
  simpa only [List.append_nil] using both

/-- Putting back an emitter after an activity of its own brings it just the texts that the activity took from
outside. -/
theorem Settled.settle (settled : d.Settled) {index : Nat} {seat : Seat} (present : d.seats[index]? = some seat)
    {e : Emitter} {texts : List String} (account : History.intake e.journal = (false, texts)) :
    Took d (fun other => if other = index then texts else []) (d.settle index seat e) := by
  have histories : ∀ other, ((d.settle index seat e).history other).intake =
      (false, (d.history other).outside ++ if other = index then texts else []) := by
    intro other
    rw [history_settle]
    have before : (d.history other).intake = (false, (d.history other).outside) := Prod.ext (settled.ended other) rfl
    by_cases same : other = index
    · rw [if_pos same, if_pos same]
      exact History.intake_append before account
    · rw [if_neg same, if_neg same, List.append_nil, List.append_nil, before]
  refine ⟨⟨fun held member => ?_, fun other => by rw [histories]⟩, ?_, fun other => ?_, fun other => ?_⟩
  · rcases List.mem_or_eq_of_mem_set member with old | new
    · exact settled.journals held old
    · rw [new]
  · simp [Dispatch.settle]
  · simp only [isLive, d.seats_settle present]
    split
    · rename_i same
      simp [same, present]
    · rfl
  · rw [History.outside, histories]

/-- An activity brings its texts to its own emitter, if that is still there, and nothing to another. -/
theorem Settled.act (settled : d.Settled) (index : Nat) {activity : Emitter.Activity} {texts : List String}
    (takes : Emitter.Takes activity texts) :
    Took d (fun other => if other = index ∧ d.isLive index then texts else []) (d.act index activity).1 := by
  rcases d.act_cases index activity with ⟨seat, present, live, same⟩ | ⟨gone, same⟩
  · obtain ⟨added, journal, account⟩ := takes seat.emitter
    rw [settled.journals seat (List.mem_of_getElem? present), List.nil_append] at journal
    have there : d.isLive index = true := by simp [isLive, present, live]
    rw [same]
    simpa only [there, and_true] using settled.settle present (journal ▸ account)
  · have absent : d.isLive index = false := by
      cases present : d.seats[index]? with
      | none => simp [isLive, present]
      | some seat => simp [isLive, present, gone seat present]
    rw [same]
    simpa only [absent, Bool.false_eq_true, and_false, if_false] using Took.nothing settled

theorem Settled.submit (settled : d.Settled) (index : Nat) (text : String) :
    Took d (fun other => if other = index ∧ d.isLive index then [text] else []) (d.submit index text).1 :=
  settled.act index (Emitter.submit_takes text)

theorem Settled.runQueue (settled : d.Settled) (queue : Nat) : Took d (fun _ => []) (d.runQueue queue).1 := by
  have keeps : ∀ {before after : Dispatch} {result : Except DeliveryError Unit}, Took d (fun _ => []) before →
      next queue before = some (after, result) → Took d (fun _ => []) after := by
    intro before after result so_far ran
    obtain ⟨index, rest, -, acted⟩ := next_eq_some ran
    have popped : Took before (fun _ => []) (before.withQueue queue rest) :=
      ⟨⟨so_far.settled.journals, so_far.settled.ended⟩, rfl, fun _ => rfl, fun _ => (List.append_nil _).symm⟩
    have task := popped.settled.act index Emitter.runTask_takes
    rw [acted] at task
    simp only [ite_self] at task
    exact so_far.then_nothing (popped.then_nothing task)
  exact drain_keeps keeps (d.bound queue) (Took.nothing settled)

theorem history_notify (d : Dispatch) (notices : List Notice) (index : Nat) :
    (d.notify notices).history index = d.history index := by
  have silent : (notices.map Entry.notice).filterMap (Entry.occurrence? index) = [] := by
    simp [List.filterMap_eq_nil_iff, Entry.occurrence?]
  simp only [history, notify, List.filterMap_append, silent, List.append_nil]

theorem Settled.notify (settled : d.Settled) (notices : List Notice) : Took d (fun _ => []) (d.notify notices) where
  settled := ⟨settled.journals, fun index => by rw [history_notify]; exact settled.ended index⟩
  length := rfl
  live _ := rfl
  outside index := by rw [history_notify, List.append_nil]

theorem isLive_remove (d : Dispatch) (index other : Nat) :
    (d.remove index).isLive other = if other = index then false else d.isLive other := by
  simp only [isLive, remove, update, List.getElem?_modify]
  by_cases same : other = index
  · subst same
    cases d.seats[other]? <;> simp
  · cases d.seats[other]? <;> simp [same, Ne.symm same]

theorem Settled.update (settled : d.Settled) (index : Nat) {change : Seat → Seat}
    (keeps : ∀ seat, (change seat).emitter.journal = seat.emitter.journal) : (d.update index change).Settled := by
  refine ⟨fun seat member => ?_, settled.ended⟩
  obtain ⟨position, present⟩ := List.mem_iff_getElem?.mp member
  simp only [Dispatch.update, List.getElem?_modify] at present
  obtain ⟨held, there, rfl⟩ := Option.map_eq_some_iff.mp present
  have journal := settled.journals held (List.mem_of_getElem? there)
  split
  · rw [keeps, journal]
  · exact journal

end Dispatch

variable {B : Type}

namespace Session

/-- Every instance has an emitter of its number. -/
structure Seated (s : Session B) : Prop where
  settled : s.dispatch.Settled
  length : s.dispatch.seats.length = s.members.length
  live : ∀ index, (s.find? index).isSome → s.dispatch.isLive index = true

/-- A session has become another one, while just the given texts came to the emitter of a number from
outside, and none to the others. -/
structure Brought (s : Session B) (index : Nat) (texts : List String) (t : Session B) : Prop where
  seated : t.Seated
  outside : ∀ other, (t.dispatch.history other).outside =
    (s.dispatch.history other).outside ++ if other = index then texts else []

variable {s t u : Session B} {index : Nat} {texts more : List String}

theorem seated_initial : (initial : Session B).Seated :=
  ⟨⟨by simp [initial], fun _ => rfl⟩, rfl, fun _ found => by simp [initial, find?] at found⟩

theorem Brought.nothing (seated : s.Seated) (index : Nat) : Brought s index [] s :=
  ⟨seated, fun _ => by rw [ite_self, List.append_nil]⟩

theorem Brought.trans (first : Brought s index texts t) (second : Brought t index more u) :
    Brought s index (texts ++ more) u := by
  refine ⟨second.seated, fun other => ?_⟩
  rw [second.outside, first.outside, List.append_assoc]
  by_cases same : other = index <;> simp [same]

/-- Where the same instances are there, the emitters stay theirs. -/
theorem Seated.took (seated : s.Seated) {all : Nat → List String} (took : s.dispatch.Took all t.dispatch)
    (length : t.members.length = s.members.length)
    (found : ∀ index, (t.find? index).isSome → (s.find? index).isSome) : t.Seated :=
  ⟨took.settled, took.length.trans (seated.length.trans length.symm),
    fun index there => (took.live index).trans (seated.live index (found index there))⟩

/-- So they do where nothing has come to anyone. -/
theorem Seated.quietly (seated : s.Seated) (took : s.dispatch.Took (fun _ => []) t.dispatch)
    (length : t.members.length = s.members.length)
    (found : ∀ index, (t.find? index).isSome → (s.find? index).isSome) (index : Nat) : Brought s index [] t := by
  refine ⟨seated.took took length found, fun other => ?_⟩
  rw [ite_self]
  exact took.outside other

theorem Seated.notify (seated : s.Seated) (notices : List Notice) (index : Nat) :
    Brought s index [] (s.notify notices) :=
  seated.quietly (t := s.notify notices) (seated.settled.notify notices) rfl (fun _ there => there) index

theorem Seated.put (seated : s.Seated) (there : (s.find? index).isSome) (content : Option (Instance B)) :
    Brought s index [] (s.put index content) := by
  refine seated.quietly (t := s.put index content) (.nothing seated.settled) (by simp [Session.put]) ?_ index
  intro other found
  rw [find?_put] at found
  split at found
  · rename_i same
    rwa [same]
  · exact found

theorem Seated.submit (seated : s.Seated) (there : s.dispatch.isLive index = true) (text : String) :
    Brought s index [text] (s.submit index text).1 := by
  have took := seated.settled.submit index text
  refine ⟨seated.took took rfl fun _ there => there, fun other => ?_⟩
  have grown : ((s.submit index text).1.dispatch.history other).outside = _ := took.outside other
  simpa only [there, and_true] using grown

theorem Seated.runQueue (seated : s.Seated) (queue index : Nat) : Brought s index [] (s.runQueue queue).1 :=
  seated.quietly (t := (s.runQueue queue).1) (seated.settled.runQueue queue) rfl (fun _ there => there) index

theorem Seated.run (seated : s.Seated) (index : Nat) : Brought s index [] (s.run index).1 := by
  unfold Session.run
  dsimp only
  split
  · exact seated.runQueue _ index
  · exact .nothing seated index

theorem Seated.drop (seated : s.Seated) (index : Nat) : Brought s index [] (s.drop index) := by
  refine ⟨⟨seated.settled.update index fun _ => rfl, ?_, fun other there => ?_⟩, fun other => ?_⟩
  · simp [Session.drop, Session.put, Dispatch.remove, Dispatch.update, seated.length]
  · have found : (s.put index none).find? other = (s.drop index).find? other := rfl
    have kept : (s.drop index).dispatch.isLive other = _ := s.dispatch.isLive_remove index other
    rw [← found, find?_put] at there
    rw [kept]
    split at there
    · simp at there
    · rename_i differ
      rw [if_neg differ]
      exact seated.live other there
  · rw [ite_self, List.append_nil]
    rfl

theorem Seated.withInstance {α : Type} (seated : s.Seated) (index : Nat) (texts : Instance B → List String)
    {use : Instance B → Session B × Except SessionError α}
    (done : ∀ i, s.find? index = some i → Brought s index (texts i) (use i).1) :
    Brought s index ((s.find? index).elim [] texts) (s.withInstance index use).1 := by
  unfold Session.withInstance
  cases held : s.find? index with
  | none => exact .nothing seated index
  | some i => exact done i held

/-- A session with one more number, before its instance is there. -/
theorem Seated.add (seated : s.Seated) (recorded : Bool) {seat : Seat} (quiet : seat.emitter.journal = []) :
    Seated ⟨s.members ++ [⟨none, recorded⟩], s.dispatch.add seat⟩ := by
  refine ⟨⟨fun held member => ?_, seated.settled.ended⟩, ?_, fun other there => ?_⟩
  · rcases List.mem_append.mp member with old | new
    · exact seated.settled.journals held old
    · rw [List.mem_singleton.mp new, quiet]
  · simp [Dispatch.add, seated.length]
  · have inside : other < s.members.length := by
      by_contra beyond
      have absent : (s.members ++ [⟨none, recorded⟩])[other]?.bind Member.content = none := by
        rw [List.getElem?_append_right (Nat.le_of_not_lt beyond)]
        cases other - s.members.length <;> simp
      simp [find?, absent] at there
    have found : (s.find? other).isSome := by
      simpa [find?, List.getElem?_append_left inside] using there
    have live := seated.live other found
    simpa [Dispatch.isLive, Dispatch.add, List.getElem?_append_left (seated.length ▸ inside)] using live

/-- An instance whose emitter is there comes into being. -/
theorem Seated.fill (seated : s.Seated) (live : s.dispatch.isLive index = true) (i : Instance B) :
    Seated { s.put index (some i) with dispatch := s.dispatch.attach index } := by
  have attached : ∀ other, (s.dispatch.attach index).isLive other = s.dispatch.isLive other := by
    intro other
    simp only [Dispatch.isLive, Dispatch.attach, Dispatch.update, List.getElem?_modify]
    cases s.dispatch.seats[other]? with
    | none => simp
    | some seat => by_cases same : index = other <;> simp [same]
  refine ⟨seated.settled.update index fun _ => rfl, ?_, fun other there => ?_⟩
  · simp [Session.put, Dispatch.attach, Dispatch.update, seated.length]
  · have found : ((s.put index (some i)).find? other).isSome := there
    rw [attached other]
    rw [find?_put] at found
    split at found
    · rename_i same
      rwa [same]
    · exact seated.live other found

end Session

end NestedCss
