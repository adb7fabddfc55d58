import NestedCss.Proofs.LevelSteps

namespace NestedCss

/-- The guard has stopped a compilation. -/
def Report.TooDeep {α : Type} (report : Report α) : Prop :=
  ∃ key, report.outcome = .error (.tooDeep key)

/-- The second report is the first one, unless the guard has stopped the first. -/
def Report.Deepens {α : Type} (shallow deep : Report α) : Prop :=
  shallow = deep ∨ shallow.TooDeep

namespace Report
variable {α β : Type}

theorem Deepens.refl (report : Report α) : report.Deepens report := .inl rfl

theorem Deepens.eq {shallow deep : Report α} (deepens : shallow.Deepens deep) (fits : ¬ shallow.TooDeep) :
    shallow = deep :=
  deepens.resolve_right fits

theorem TooDeep.bind {report : Report α} (stopped : report.TooDeep) (next : α → Report β) :
    (report >>= next).TooDeep := by
  obtain ⟨key, outcome⟩ := stopped
  exact ⟨key, by simp only [bind_eq, andThen, outcome]⟩

theorem TooDeep.of_next {report : Report α} {a : α} {next : α → Report β} (reached : report.outcome = .ok a)
    (stopped : (next a).TooDeep) : (report >>= next).TooDeep := by
  obtain ⟨key, outcome⟩ := stopped
  exact ⟨key, by simp only [bind_eq, andThen, reached, outcome]⟩

/-- The relation holds of two steps if it holds of each: an early stop of the first is a stop of both. -/
theorem Deepens.bind {shallow deep : Report α} {next nextDeep : α → Report β} (first : shallow.Deepens deep)
    (rest : ∀ a, shallow.outcome = .ok a → (next a).Deepens (nextDeep a)) :
    (shallow >>= next).Deepens (deep >>= nextDeep) := by
  rcases first with rfl | stopped
  · cases outcome : shallow.outcome with
    | error e => exact .inl (by simp only [bind_eq, andThen, outcome])
    | ok a =>
      rcases rest a outcome with same | stopped
      · exact .inl (by simp only [bind_eq, andThen, outcome, same])
      · exact .inr (stopped.of_next outcome)
  · exact .inr (stopped.bind next)

theorem Deepens.foldlM {step stepDeep : α → β → Report α} (steps : ∀ a b, (step a b).Deepens (stepDeep a b))
    (list : List β) (a : α) : (list.foldlM step a).Deepens (list.foldlM stepDeep a) := by
  induction list generalizing a with
  | nil => exact .refl _
  | cons b rest ih =>
    rw [List.foldlM_cons, List.foldlM_cons]
    exact .bind (steps a b) fun next _ => ih next

end Report

variable {B : Type}

/-- The second compiler goes on where the guard stops the first, and is like it otherwise. -/
def Compiler.Deepens (shallow deep : Compiler B) : Prop :=
  ∀ node selector scope, (shallow node selector scope).Deepens (deep node selector scope)

/-- What is done below a key comes to the same with a deeper compiler. Without a level below the guard
stops it. -/
theorem enter_deepens {α : Type} {shallow deep : Option (Compiler B)}
    (deepens : ∀ compiler ∈ shallow, ∃ further ∈ deep, compiler.Deepens further) (key : String)
    {use : Compiler B → Report α} (used : ∀ compiler further, compiler.Deepens further →
      (use compiler).Deepens (use further)) :
    (enter shallow key >>= use).Deepens (enter deep key >>= use) := by
  cases shallow with
  | none => exact .inr ⟨key, rfl⟩
  | some compiler =>
    obtain ⟨further, below, deeper⟩ := deepens compiler rfl
    cases below
    simpa only [enter, pure_bind] using used compiler further deeper

namespace Level
variable {shallow deep : Option (Compiler B)} {selector : String} {enclosing : Scope B}

theorem atRule_deepens (deepens : ∀ compiler ∈ shallow, ∃ further ∈ deep, compiler.Deepens further)
    (level : Level B) (key : String) (value : Value B) :
    (level.atRule shallow selector enclosing key value).Deepens (level.atRule deep selector enclosing key value) := by
  unfold atRule
  split
  · exact enter_deepens deepens key fun _ _ deeper => .bind (deeper _ _ _) fun _ _ => .refl _
  · exact .refl _

theorem nested_deepens (deepens : ∀ compiler ∈ shallow, ∃ further ∈ deep, compiler.Deepens further)
    (level : Level B) (key : String) (value : Value B) :
    (level.nested shallow selector enclosing key value).Deepens (level.nested deep selector enclosing key value) := by
  unfold nested
  split
  · exact enter_deepens deepens key fun _ _ deeper => .bind (deeper _ _ _) fun _ _ => .refl _
  · exact .refl _

variable [Expansion B]

theorem invoke_deepens (deepens : ∀ compiler ∈ shallow, ∃ further ∈ deep, compiler.Deepens further)
    (level : Level B) (key : String) (value : Value B) (entry : Macro B) :
    (level.invoke shallow selector enclosing key value entry).Deepens
      (level.invoke deep selector enclosing key value entry) := by
  unfold invoke
  refine enter_deepens deepens key fun _ _ deeper => ?_
  cases entry.body with
  | none => exact .refl _
  | some body => exact .bind (deeper _ _ _) fun _ _ => .refl _

theorem step_deepens (policy : CapturePolicy)
    (deepens : ∀ compiler ∈ shallow, ∃ further ∈ deep, compiler.Deepens further) (level : Level B)
    (entry : String × Value B) :
    (level.step policy shallow selector enclosing entry).Deepens (level.step policy deep selector enclosing entry) := by
  obtain ⟨key, value⟩ := entry
  unfold step
  dsimp only
  cases Role.of (level.frame :: enclosing) key value with
  | invoke entry => exact invoke_deepens deepens level key value entry
  | atRule => exact atRule_deepens deepens level key value
  | selector => exact nested_deepens deepens level key value
  | _ => exact .refl _

/-- Keys taken one after another come to the same in a deeper compilation, up to the first that is stopped. -/
theorem steps_deepen (policy : CapturePolicy)
    (deepens : ∀ compiler ∈ shallow, ∃ further ∈ deep, compiler.Deepens further) (level : Level B) (node : Node B) :
    (level.steps policy shallow selector enclosing node).Deepens (level.steps policy deep selector enclosing node) :=
  .foldlM (fun level entry => step_deepens policy deepens level entry) node level

end Level

variable [Expansion B]

/-- More levels below change nothing but where the guard stops. The induction is on the levels below the
shallower compiler; one without levels below is stopped at the first key that needs one. -/
theorem Compiler.below_deepens (policy : CapturePolicy) {fewer more : Nat} (bound : fewer ≤ more) :
    ∀ compiler ∈ (Compiler.below policy fewer : Option (Compiler B)),
      ∃ further ∈ Compiler.below policy more, compiler.Deepens further := by
  induction fewer generalizing more with
  | zero => simp [Compiler.below]
  | succ fewer ih =>
    obtain ⟨further, rfl⟩ := Nat.exists_eq_add_of_lt bound
    have inner := ih (Nat.le_add_right fewer further)
    rintro _ ⟨⟩
    refine ⟨_, rfl, fun node selector scope => ?_⟩
    rw [above_eq, above_eq]
    exact Level.steps_deepen policy inner .start node

/-- The more levels lie below a compiler, the further it goes, and up to where the guard has stopped it before it
does the same. -/
theorem Compiler.above_deepens (policy : CapturePolicy) {fewer more : Nat} (bound : fewer ≤ more) :
    (Compiler.above policy fewer : Compiler B).Deepens (Compiler.above policy more) := by
  obtain ⟨_, ⟨⟩, deepens⟩ := below_deepens policy (Nat.succ_le_succ bound) (above policy fewer : Compiler B) rfl
  exact deepens

end NestedCss
