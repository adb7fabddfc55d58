import Mathlib
import NestedCss.Proofs.CompilationDepth
import NestedCss.Proofs.KeyRoles
import NestedCss.Proofs.StackedLevels
import NestedCss.Style.Template

namespace NestedCss

variable {B : Type} [Expansion B]

namespace Level
variable {policy : CapturePolicy} {levels : Nat} {selector : String} {enclosing : Scope B} {level : Level B}
  {key : String} {body : B}

/-- The invocation of a shared macro does what the entries of the expansion do. It costs one level of
depth, which the entries do not. -/
theorem step_shared (plain : ¬ ['$', '$'] <+: key.toList)
    (visible : Scope.find? (level.frame :: enclosing) key = some ⟨some body, none⟩) (value : Value B) :
    (level.step policy (Compiler.below policy levels) selector enclosing (key, value)).Deepens
      (level.steps policy (Compiler.below policy levels) selector enclosing (Expansion.expand body value)) := by
  have invoked : level.step policy (Compiler.below policy levels) selector enclosing (key, value) =
      level.invoke (Compiler.below policy levels) selector enclosing key value ⟨some body, none⟩ := by
    simp only [step, Role.of_visible plain visible]
  rw [invoked]
  -- An expansion needs a level below; the entries in its place do not.
  cases levels with
  | zero => exact .inr ⟨key, rfl⟩
  | succ levels =>
    have inlined : level.invoke (Compiler.below policy (levels + 1)) selector enclosing key value ⟨some body, none⟩ =
        level.steps policy (Compiler.below policy levels) selector enclosing (Expansion.expand body value) :=
      absorb_compiled level rfl _
    rw [inlined]
    exact steps_deepen policy (Compiler.below_deepens policy (Nat.le_succ levels)) level _

/-- The same within a list of entries. -/
theorem steps_shared {first : Level B} {before : Node B}
    (reached : (first.steps policy (Compiler.below policy levels) selector enclosing before).outcome = .ok level)
    (plain : ¬ ['$', '$'] <+: key.toList)
    (visible : Scope.find? (level.frame :: enclosing) key = some ⟨some body, none⟩) (value : Value B)
    (after : Node B) :
    (first.steps policy (Compiler.below policy levels) selector enclosing (before ++ (key, value) :: after)).Deepens
      (first.steps policy (Compiler.below policy levels) selector enclosing
        (before ++ (Expansion.expand body value ++ after))) := by
  rw [steps_append, steps_append]
  refine .bind (.refl _) fun next taken => ?_
  obtain rfl := Except.ok.inj (reached.symm.trans taken)
  rw [steps_cons, steps_append]
  exact .bind (step_shared plain visible value) fun _ _ => .refl _

theorem steps_tooDeep_of_prefix {passed node : Node B} (inside : passed <+: node)
    (stopped : (level.steps policy (Compiler.below policy levels) selector enclosing passed).TooDeep) :
    (level.steps policy (Compiler.below policy levels) selector enclosing node).TooDeep := by
  obtain ⟨rest, rfl⟩ := inside
  rw [steps_append]
  exact stopped.bind _

end Level

/-- Where a key names a macro in scope that can be called and shares the scope, compiling the entries in
which it stands comes to compiling those in which the expansion stands in its place, unless the guard stops
the compilation. The levels that are reached on the way behind it are the same too, and with them all that
is visible to a later key, and a table takes over the same. -/
theorem shared_invocation_is_inlining (policy : CapturePolicy) :
    (∀ {levels : Nat} {selector : String} {enclosing : Scope B} {first level : Level B} {before after : Node B}
        {key : String} {body : B} {value : Value B},
      (first.steps policy (Compiler.below policy levels) selector enclosing before).outcome = .ok level →
      ¬ ['$', '$'] <+: key.toList →
      Scope.find? (level.frame :: enclosing) key = some ⟨some body, none⟩ →
      ¬ (first.steps policy (Compiler.below policy levels) selector enclosing
        (before ++ (key, value) :: after)).TooDeep →
      ∀ passed, passed <+: after →
        first.steps policy (Compiler.below policy levels) selector enclosing (before ++ (key, value) :: passed) =
          first.steps policy (Compiler.below policy levels) selector enclosing
            (before ++ (Expansion.expand body value ++ passed))) ∧
    ∀ {table : Frame B} {exported : Bool} {selector : String} {level : Level B} {before after : Node B}
        {key : String} {body : B} {value : Value B},
      (compile policy before selector [table]).outcome = .ok level →
      ¬ ['$', '$'] <+: key.toList →
      Scope.find? [level.frame, table] key = some ⟨some body, none⟩ →
      ¬ (table.compile policy exported (before ++ (key, value) :: after) selector).2.TooDeep →
      table.compile policy exported (before ++ (key, value) :: after) selector =
        table.compile policy exported (before ++ (Expansion.expand body value ++ after)) selector := by
  constructor
  · intro levels selector enclosing first level before after key body value reached plain visible fits passed inside
    refine (Level.steps_shared reached plain visible value passed).eq fun stopped => fits ?_
    obtain ⟨rest, rfl⟩ := inside
    exact Level.steps_tooDeep_of_prefix ⟨rest, by simp⟩ stopped
  · intro table exported selector level before after key body value reached plain visible fits
    rw [compile, Compiler.above_eq] at reached
    have same : compile policy (before ++ (key, value) :: after) selector [table] =
        compile policy (before ++ (Expansion.expand body value ++ after)) selector [table] := by
      rw [compile, Compiler.above_eq, Compiler.above_eq]
      refine (Level.steps_shared reached plain visible value after).eq fun stopped => fits ?_
      rw [← Compiler.above_eq] at stopped
      exact stopped.bind _
    simp only [Frame.compile, same]

/-- The macro `Pad` is invoked behind the definition of `gap`, which its expansion uses; the macro `inner`
that the expansion defines is invoked behind it. -/
theorem shared_invocation_is_inlining_pad :
    let pad : Closure := .mk (.node [(.text "$$inner", .callable .captured (.node [(.text "gap", .text "later")])),
      (.text "gap", .argument 0)]) []
    let gap : Closure := .mk (.node [(.text "margin", .argument 0)]) []
    let before : Node Closure := [("$$Pad", .callable .byName pad), ("$$gap", .callable .byName gap)]
    let invocation : String × Value Closure := ("Pad", .text "now")
    let after : Node Closure := [("inner", .text "")]
    let start : Level Closure := .start
    start.steps .lowercase (Compiler.below .lowercase 2) ".x" [Frame.empty] (before ++ invocation :: after) =
        start.steps .lowercase (Compiler.below .lowercase 2) ".x" [Frame.empty]
          (before ++ (Expansion.expand pad (.text "now") ++ after)) ∧
      Frame.empty.compile .lowercase true (before ++ invocation :: after) ".x" =
        Frame.empty.compile .lowercase true (before ++ (Expansion.expand pad (.text "now") ++ after)) ".x" ∧
      (Frame.empty.compile .lowercase true (before ++ invocation :: after) ".x").2.outcome =
        .ok ⟨"margin:now;margin:later;", ""⟩ := by
  intro pad gap before invocation after start
  have compiled : (Frame.empty.compile .lowercase true (before ++ invocation :: after) ".x").2.outcome =
      .ok ⟨"margin:now;margin:later;", ""⟩ := by cbv
  have fits : ¬ (Frame.empty.compile .lowercase true (before ++ invocation :: after) ".x").2.TooDeep := by
    rintro ⟨key, stopped⟩
    rw [compiled] at stopped
    cases stopped
  have shallow : Level.fragment <$> start.steps .lowercase (Compiler.below .lowercase 2) ".x" [Frame.empty]
      (before ++ invocation :: after) = ⟨[], .ok ⟨"margin:now;margin:later;", ""⟩⟩ := by cbv
  have fitsShallow : ¬ (start.steps .lowercase (Compiler.below .lowercase 2) ".x" [Frame.empty]
      (before ++ invocation :: after)).TooDeep := by
    intro stopped
    obtain ⟨key, outcome⟩ := stopped.bind fun level => pure level.fragment
    rw [← map_eq_pure_bind, shallow] at outcome
    cases outcome
  exact ⟨(shared_invocation_is_inlining .lowercase).1 rfl (by decide) rfl fitsShallow after (List.prefix_refl after),
    (shared_invocation_is_inlining .lowercase).2 rfl (by decide) rfl fits, compiled⟩

end NestedCss
