import NestedCss.Session.Command

namespace NestedCss

variable {B : Type}

namespace Session

theorem find?_put (s : Session B) (index other : Nat) (content : Option (Instance B)) :
    (s.put index content).find? other =
      if other = index then s.members[index]?.bind fun _ => content else s.find? other := by
  by_cases same : other = index
  · subst same
    cases held : s.members[other]? <;> simp [put, find?, held]
  · simp [put, find?, same, List.getElem?_modify_ne _ _ (Ne.symm same)]

theorem find?_put_held {s : Session B} {index : Nat} {i : Instance B} (content : Option (Instance B))
    (held : s.find? index = some i) (other : Nat) :
    (s.put index content).find? other = if other = index then content else s.find? other := by
  obtain ⟨member, present, -⟩ := Option.bind_eq_some_iff.mp held
  rw [find?_put, present]
  rfl

/-- Putting back the same instance changes nothing. -/
theorem put_self {s : Session B} {index : Nat} {i : Instance B} (held : s.find? index = some i) :
    s.put index (some i) = s := by
  obtain ⟨member, present, content⟩ := Option.bind_eq_some_iff.mp held
  have same : s.members.modify index (fun member => { member with content := some i }) = s.members := by
    refine List.ext_getElem? fun other => ?_
    rw [List.getElem?_modify]
    split
    · rename_i here
      rw [← here, present, ← content]
      rfl
    · simp
  rw [put, same]

theorem members_run (s : Session B) (index : Nat) : (s.run index).1.members = s.members := by
  simp only [run]
  split <;> rfl

section Compiling
variable [Expansion B]

/-- Compiling on the instance of a number, if there is one. -/
def compilation (s : Session B) (index : Nat) : Option (Node B → String → Report String) :=
  (s.find? index).map Instance.compile

theorem compilation_congr {s t : Session B} (same : t.members = s.members) (index : Nat) :
    t.compilation index = s.compilation index := by
  simp only [compilation, find?, same]

/-- A filter has no part in what is compiled. -/
theorem compilation_put_filter {s : Session B} {index : Nat} {i : Instance B} (held : s.find? index = some i)
    (filter : Filter) (other : Nat) :
    (s.put index (some { i with filter })).compilation other = s.compilation other := by
  rw [compilation, compilation, find?_put]
  by_cases same : other = index
  · subst same
    obtain ⟨member, present, _⟩ := Option.bind_eq_some_iff.mp held
    rw [if_pos rfl, present, held]
    rfl
  · rw [if_neg same]

/-- A rule set changes the filter of its instance, and so nothing in what is compiled. -/
theorem compilation_style {s : Session B} {index : Nat} {i : Instance B} (held : s.find? index = some i)
    (node : Node B) (className : Option String) (other : Nat) :
    (s.style index i node className).1.compilation other = s.compilation other := by
  unfold style
  dsimp only
  split
  · exact compilation_congr rfl other
  · rename_i styled _
    have kept : (Session.put (s.notify (i.style node className).notices) index
        (some { i with filter := styled.filter })).compilation other = s.compilation other :=
      compilation_put_filter held styled.filter other
    split <;> exact kept

/-- No command to an instance changes what compiling on an instance comes to, unless it destroys it. -/
theorem compilation_perform (s : Session B) {target index : Nat} {command : Command B}
    (kept : (target, command) ≠ (index, .drop)) :
    (s.perform target command).1.compilation index = s.compilation index := by
  cases command with
  | style node className =>
    simp only [perform, withInstance]
    cases held : s.find? target with
    | none => rfl
    | some i => exact compilation_style held node className index
  | drop =>
    have differ : index ≠ target := fun same => kept (by rw [same])
    have dropped : (s.perform target .drop).1.compilation index = (s.put target none).compilation index :=
      compilation_congr rfl index
    rw [dropped, compilation, compilation, find?_put, if_neg differ]
  | drain => exact compilation_congr rfl index
  | compile | submit | describe =>
    simp only [perform, withInstance]
    cases s.find? target with
    | none => rfl
    | some i => exact compilation_congr rfl index
  | run =>
    simp only [perform, withInstance]
    cases s.find? target with
    | none => rfl
    | some i => exact compilation_congr (members_run s target) index

/-- The session after a list of commands, each with the number of its instance. -/
def performAll (s : Session B) (commands : List (Nat × Command B)) : Session B :=
  commands.foldl (fun s command => (s.perform command.1 command.2).1) s

/-- Compiling on an instance always comes to the same, whatever is done with it or with others, as long as it is
there. -/
theorem compilation_performAll (s : Session B) {commands : List (Nat × Command B)} {index : Nat}
    (kept : (index, .drop) ∉ commands) : (s.performAll commands).compilation index = s.compilation index := by
  induction commands generalizing s with
  | nil => rfl
  | cons command rest ih =>
    rw [List.mem_cons, not_or] at kept
    obtain ⟨here, later⟩ := kept
    exact (ih _ later).trans (compilation_perform s (Ne.symm here))

theorem perform_compile (s : Session B) (index : Nat) (node : Node B) (selector : String) :
    (s.perform index (.compile node selector)).2 =
      match s.compilation index with
      | none => .error .gone
      | some compile => ((compile node selector).outcome.mapError .compile).map .text := by
  simp only [perform, withInstance, compilation]
  cases s.find? index <;> rfl

end Compiling

end Session

end NestedCss
