import NestedCss.Compilation.Report

namespace NestedCss.Report

variable {α β γ δ : Type}

/-- The same notices, and the same error or results that stand in a relation. -/
inductive Related (R : α → β → Prop) : Report α → Report β → Prop
  | stopped (notices : List Notice) (e : CompileError) : Related R ⟨notices, .error e⟩ ⟨notices, .error e⟩
  | done (notices : List Notice) {a : α} {b : β} : R a b → Related R ⟨notices, .ok a⟩ ⟨notices, .ok b⟩

variable {R : α → β → Prop} {S : γ → δ → Prop}

theorem Related.pure {a : α} {b : β} (same : R a b) : Related R (Pure.pure a) (Pure.pure b) :=
  .done [] same

theorem Related.fail (e : CompileError) : Related R (Report.fail e) (Report.fail e) :=
  .stopped [] e

theorem Related.refl {R : α → α → Prop} (same : ∀ a, R a a) (report : Report α) : Related R report report := by
  obtain ⟨notices, outcome⟩ := report
  cases outcome with
  | error e => exact .stopped notices e
  | ok a => exact .done notices (same a)

theorem Related.imp {S : α → β → Prop} {one : Report α} {other : Report β} (related : Related R one other)
    (weaker : ∀ a b, R a b → S a b) : Related S one other := by
  cases related with
  | stopped notices e => exact .stopped notices e
  | done notices same => exact .done notices (weaker _ _ same)

/-- Related reports that are gone on with in related ways stay related. -/
theorem Related.bind {one : Report α} {other : Report β} {next : α → Report γ} {nextOther : β → Report δ}
    (first : Related R one other) (rest : ∀ a b, R a b → Related S (next a) (nextOther b)) :
    Related S (one >>= next) (other >>= nextOther) := by
  cases first with
  | stopped notices e => exact .stopped notices e
  | @done notices a b same =>
    have after := rest a b same
    simp only [bind_eq, andThen]
    generalize next a = afterOne, nextOther b = afterOther at after
    cases after with
    | stopped more e => exact .stopped (notices ++ more) e
    | done more related => exact .done (notices ++ more) related

/-- A loop over one list, from related starts and with related steps. -/
theorem Related.foldlM {step : α → γ → Report α} {stepOther : β → γ → Report β}
    (steps : ∀ a b x, R a b → Related R (step a x) (stepOther b x)) (list : List γ) {a : α} {b : β}
    (start : R a b) : Related R (list.foldlM step a) (list.foldlM stepOther b) := by
  induction list generalizing a b with
  | nil => exact .pure start
  | cons x rest ih =>
    rw [List.foldlM_cons, List.foldlM_cons]
    exact .bind (steps a b x start) fun _ _ same => ih same

/-- What related results have in common is reported alike. -/
theorem Related.map_eq {one : Report α} {other : Report β} {f : α → γ} {g : β → γ}
    (related : Related R one other) (same : ∀ a b, R a b → f a = g b) : f <$> one = g <$> other := by
  cases related with
  | stopped => rfl
  | done notices inside => simp [Functor.map, andThen, same _ _ inside]

end NestedCss.Report
