import NestedCss.Proofs.SessionTexts
import NestedCss.Proofs.StyleOffers

namespace NestedCss

variable {B : Type} [Expansion B]

namespace Instance

/-- The instance after a rule set was given to it. -/
def styled (i : Instance B) (node : Node B) (className : Option String) : Instance B :=
  match (i.style node className).outcome with
  | .error _ => i
  | .ok styled => { i with filter := styled.filter }

/-- What an instance submits for a rule set. -/
def submission (i : Instance B) (node : Node B) (className : Option String) : List String :=
  match (i.style node className).outcome with
  | .error _ => []
  | .ok styled => styled.text.toList

/-- What an instance submits for a command. -/
def brings (i : Instance B) : Command B → List String
  | .style node className => i.submission node className
  | .submit text => [text]
  | _ => []

/-- The instance after a command to it. Only a rule set leaves a trace. -/
def after (i : Instance B) : Command B → Instance B
  | .style node className => i.styled node className
  | _ => i

/-- A filter has no part in what is compiled. -/
theorem compile_after (i : Instance B) (command : Command B) : (i.after command).compile = i.compile := by
  cases command with
  | style node className =>
    unfold after styled
    dsimp only
    split <;> rfl
  | compile | submit | run | drain | drop | describe => rfl

end Instance

namespace Session

variable {s : Session B} {index : Nat} {i : Instance B}

/-- For a rule set just the text that the instance submits comes to its emitter. -/
theorem Seated.style (seated : s.Seated) (held : s.find? index = some i) (node : Node B) (className : Option String) :
    Brought s index (i.submission node className) (s.style index i node className).1 := by
  have noted := seated.notify (i.style node className).notices index
  cases outcome : (i.style node className).outcome with
  | error e => simpa only [Session.style, Instance.submission, outcome] using noted
  | ok styled =>
    have held' : (s.notify (i.style node className).notices).find? index = some i := held
    have stored := noted.trans (noted.seated.put (held' ▸ rfl) (some { i with filter := styled.filter }))
    have live := stored.seated.live index (by rw [find?_put_held _ held', if_pos rfl]; rfl)
    cases given : styled.text with
    | none =>
      simp only [Session.style, Instance.submission, outcome, given]
      exact stored
    | some text =>
      simp only [Session.style, Instance.submission, outcome, given]
      exact stored.trans (stored.seated.submit live text)

theorem find?_style (held : s.find? index = some i) (node : Node B) (className : Option String) (other : Nat) :
    (s.style index i node className).1.find? other =
      if other = index then some (i.styled node className) else s.find? other := by
  have held' : (s.notify (i.style node className).notices).find? index = some i := held
  cases outcome : (i.style node className).outcome with
  | error e =>
    simp only [Session.style, Instance.styled, outcome]
    split
    · rename_i same
      rw [same, held']
    · rfl
  | ok styled =>
    have stored := find?_put_held (some { i with filter := styled.filter }) held' other
    simp only [Session.style, Instance.styled, outcome]
    cases styled.text with
    | none => exact stored
    | some text => exact stored

/-- A command brings to the emitter of its instance what the instance submits for it. -/
theorem Seated.perform (seated : s.Seated) (index : Nat) (command : Command B) :
    Brought s index ((s.find? index).elim [] (·.brings command)) (s.perform index command).1 := by
  have silent : (∀ i : Instance B, i.brings command = []) → (s.find? index).elim [] (·.brings command) = [] := by
    intro none
    cases s.find? index with
    | none => rfl
    | some i => exact none i
  cases command with
  | style node className => exact seated.withInstance index _ fun i held => seated.style held node className
  | compile node selector => exact seated.withInstance index _ fun i held => seated.notify _ index
  | submit text => exact seated.withInstance index _ fun i held => seated.submit (seated.live index (held ▸ rfl)) text
  | run => exact seated.withInstance index _ fun i held => seated.run index
  | drain =>
    rw [silent fun _ => rfl]
    exact seated.runQueue Setup.commonQueue index
  | drop =>
    rw [silent fun _ => rfl]
    exact seated.drop index
  | describe => exact seated.withInstance index _ fun i held => .nothing seated index

/-- No command changes an instance other than its own. -/
theorem find?_perform (s : Session B) {target index : Nat} {command : Command B}
    (kept : (target, command) ≠ (index, .drop)) :
    (s.perform target command).1.find? index =
      (s.find? index).map fun i => if index = target then i.after command else i := by
  have unchanged : (∀ i : Instance B, i.after command = i) →
      s.find? index = (s.find? index).map fun i => if index = target then i.after command else i := by
    intro silent
    simp [silent]
  cases command with
  | style node className =>
    simp only [Session.perform, withInstance]
    cases held : s.find? target with
    | none =>
      by_cases same : index = target
      · subst same
        simp [held]
      · simp [same]
    | some i =>
      refine (find?_style held node className index).trans ?_
      split
      · rename_i same
        subst same
        rw [held]
        rfl
      · simp
  | drop =>
    have differ : index ≠ target := fun same => kept (by rw [same])
    have dropped : (s.perform target .drop).1.find? index = (s.put target none).find? index := rfl
    rw [dropped, find?_put, if_neg differ]
    exact unchanged fun _ => rfl
  | drain => exact unchanged fun _ => rfl
  | compile | submit | describe =>
    simp only [Session.perform, withInstance]
    cases s.find? target with
    | none => exact unchanged fun _ => rfl
    | some i => exact unchanged fun _ => rfl
  | run =>
    simp only [Session.perform, withInstance]
    cases s.find? target with
    | none => exact unchanged fun _ => rfl
    | some i =>
      have same : (s.run target).1.find? index = s.find? index := by rw [find?, members_run, find?]
      exact same.trans (unchanged fun _ => rfl)

/-- What adding global nodes keeps, where the emitter of a number is there. -/
structure Adds (s : Session B) (index : Nat) (i : Instance B) (t : Session B)
    (result : Except SessionError (Instance B)) : Prop where
  seated : t.Seated
  live : t.dispatch.isLive index = true
  members : t.members = s.members
  filter : ∀ made, result = .ok made → made.filter = i.filter

/-- Adding global nodes leaves the instances of the session and the filter of the new one as they are, wherever
it ends. -/
theorem Seated.addGlobals (seated : s.Seated) (live : s.dispatch.isLive index = true) (i : Instance B)
    (nodes : List (Node B)) :
    Adds s index i (addGlobals index i nodes s).1 (addGlobals index i nodes s).2 := by
  induction nodes generalizing s i with
  | nil => exact ⟨seated, live, rfl, fun made same => by cases same; rfl⟩
  | cons node rest ih =>
    have noted := (seated.notify (i.addGlobal node).2.notices index).seated
    cases outcome : (i.addGlobal node).2.outcome with
    | error e =>
      simp only [Session.addGlobals, outcome]
      exact ⟨noted, live, rfl, fun made same => by cases same⟩
    | ok text =>
      have reached := (noted.submit live text).seated
      have live' : ((s.notify (i.addGlobal node).2.notices).submit index text).1.dispatch.isLive index = true :=
        ((noted.settled.submit index text).live index).trans live
      have members : ((s.notify (i.addGlobal node).2.notices).submit index text).1.members = s.members := rfl
      simp only [Session.addGlobals, outcome]
      generalize (s.notify (i.addGlobal node).2.notices).submit index text = submitted at reached live' members ⊢
      obtain ⟨t, _ | _⟩ := submitted
      · exact ⟨reached, live', members, fun made same => by cases same⟩
      · have after := ih reached live' (i.addGlobal node).1
        exact ⟨after.seated, after.live, after.members.trans members, after.filter⟩

/-- Making an instance keeps an emitter for everyone. The new instance has the filter that was asked for. -/
theorem Seated.create (seated : s.Seated) (setup : Setup B) : (s.create setup).1.Seated ∧
    ((s.create setup).2 = .ok () →
      ∃ i, (s.create setup).1.find? s.members.length = some i ∧ i.filter = setup.filter) := by
  have extended : Seated ⟨s.members ++ [⟨none, Setup.isRecorded setup.sink⟩],
    s.dispatch.add (setup.seat s.members.length)⟩ := seated.add _ rfl
  have live : (s.dispatch.add (setup.seat s.members.length)).isLive s.members.length = true := by
    simp [Dispatch.isLive, Dispatch.add, ← seated.length, Setup.seat]
  have adds := extended.addGlobals live ⟨setup.root, setup.policy, Frame.empty, setup.filter⟩ setup.globals
  unfold Session.create
  dsimp only
  generalize Session.addGlobals s.members.length _ setup.globals _ = added at adds ⊢
  obtain ⟨t, e | i⟩ := added
  · exact ⟨(adds.seated.drop _).seated, fun made => by cases made⟩
  · refine ⟨adds.seated.fill adds.live i, fun _ => ⟨i, ?_, adds.filter i rfl⟩⟩
    have found : (t.put s.members.length (some i)).find? s.members.length = some i := by
      rw [find?_put, if_pos rfl, adds.members]
      simp
    exact found

/-- Sessions that come about from the initial one by making instances and by commands to them. -/
inductive Reached : Session B → Prop
  | initial : Reached initial
  | create {s : Session B} (setup : Setup B) : Reached s → Reached (s.create setup).1
  | perform {s : Session B} (index : Nat) (command : Command B) : Reached s → Reached (s.perform index command).1

/-- In every session that comes about, each instance has an emitter of its own. -/
theorem Reached.seated (reached : s.Reached) : s.Seated := by
  induction reached with
  | initial => exact seated_initial
  | create setup _ ih => exact (ih.create setup).1
  | perform index command _ ih => exact (ih.perform index command).seated

end Session

end NestedCss
