import Mathlib
import NestedCss.Proofs.StackedLevels
import NestedCss.Style.Template

namespace NestedCss

variable {B : Type} [Expansion B]

/-- The second part of a node is compiled as if the table had taken over what the first part defines. -/
theorem compile_append (policy : CapturePolicy) (table : Frame B) (first second : Node B) (selector : String) :
    compile policy (first ++ second) selector [table] = (do
      let level ← compile policy first selector [table]
      let rest ← compile policy second selector [table.merge level.frame]
      return level.absorb rest) := by
  rw [compile, Compiler.above_eq, Level.steps_append, ← Compiler.above_eq]
  refine bind_congr fun level => ?_
  rw [← map_eq_pure_bind]
  exact (Level.absorb_compiled level (Scope.flatten_merge table level.frame []) second).symm

namespace Frame
variable {table : Frame B} {policy : CapturePolicy} {first second : Node B} {selector : String}

/-- Two nodes one behind the other compile exactly when both do, the second with what the first has defined. -/
theorem compile_append_ok {fragment : Fragment} :
    (table.compile policy true (first ++ second) selector).2.outcome = .ok fragment ↔
      ∃ a b, (table.compile policy true first selector).2.outcome = .ok a ∧
        ((table.compile policy true first selector).1.compile policy true second selector).2.outcome = .ok b ∧
          a.join b = fragment := by
  simp only [compile_ok, compile_append, Report.outcome_bind_ok]
  constructor
  · rintro ⟨_, ⟨level, taken, rest, takenRest, ⟨⟩⟩, rfl⟩
    refine ⟨level.fragment, rest.fragment, ⟨level, taken, rfl⟩, ⟨rest, ?_, rfl⟩, rfl⟩
    rwa [compile_exported taken]
  · rintro ⟨_, _, ⟨level, taken, rfl⟩, ⟨rest, takenRest, rfl⟩, rfl⟩
    rw [compile_exported taken] at takenRest
    exact ⟨level.absorb rest, ⟨level, taken, rest, takenRest, rfl⟩, rfl⟩

/-- They fail with the error of the first, or with that of the second where the first has none. -/
theorem compile_append_error {e : CompileError} :
    (table.compile policy true (first ++ second) selector).2.outcome = .error e ↔
      (table.compile policy true first selector).2.outcome = .error e ∨
        (∃ a, (table.compile policy true first selector).2.outcome = .ok a) ∧
          ((table.compile policy true first selector).1.compile policy true second selector).2.outcome = .error e := by
  simp only [compile_error, compile_ok, compile_append, Report.outcome_bind_error]
  constructor
  · rintro (failed | ⟨level, taken, failed | ⟨rest, _, ⟨⟩⟩⟩)
    · exact .inl failed
    · rw [compile_exported taken]
      exact .inr ⟨⟨level.fragment, level, taken, rfl⟩, failed⟩
  · rintro (failed | ⟨⟨_, level, taken, rfl⟩, failed⟩)
    · exact .inl failed
    · rw [compile_exported taken] at failed
      exact .inr ⟨level, taken, .inl failed⟩

theorem compile_append_table {fragment : Fragment}
    (compiled : (table.compile policy true (first ++ second) selector).2.outcome = .ok fragment) :
    (table.compile policy true (first ++ second) selector).1 =
      ((table.compile policy true first selector).1.compile policy true second selector).1 := by
  obtain ⟨last, takenWhole, _⟩ := compile_ok.mp compiled
  have split := takenWhole
  rw [compile_append] at split
  obtain ⟨level, taken, rest⟩ := Report.outcome_bind_ok.mp split
  obtain ⟨other, takenRest, finished⟩ := Report.outcome_bind_ok.mp rest
  cases finished
  rw [compile_exported takenWhole, compile_exported taken, compile_exported takenRest]
  exact merge_assoc _ _ _

end Frame

/-- Compiling a node against a table comes to compiling its two parts in turn, each exported to the table.
It succeeds if both do, with the text of the first part in front of that of the second, and the table ends
up the same, so that its names and all later compilations against it are the same. It fails with the error
of the first part, or else with that of the second. -/
theorem node_splits (table : Frame B) (policy : CapturePolicy) (first second : Node B) (selector : String) :
    let whole := table.compile policy true (first ++ second) selector
    let one := table.compile policy true first selector
    let two := one.1.compile policy true second selector
    (∀ fragment, whole.2.outcome = .ok fragment ↔
        ∃ a b, one.2.outcome = .ok a ∧ two.2.outcome = .ok b ∧ a.join b = fragment) ∧
      (∀ e, whole.2.outcome = .error e ↔
        one.2.outcome = .error e ∨ (∃ a, one.2.outcome = .ok a) ∧ two.2.outcome = .error e) ∧
      ∀ fragment, whole.2.outcome = .ok fragment → whole.1 = two.1 :=
  ⟨fun _ => Frame.compile_append_ok, fun _ => Frame.compile_append_error, fun _ => Frame.compile_append_table⟩

/-- The first node puts a token rule and defines a macro that captures it; the second one invokes the macro
and puts a rule in front. -/
theorem node_splits_brand :
    let rule (token output : String) : Value Closure := .resolver fun asked _ => if asked = token then some output else none
    let first : Node Closure := [("$$", rule "brand" "red"),
      ("$$tint", .callable .captured (.mk (.node [(.text "color", .argument 0)]) []))]
    let second : Node Closure := [("$$", rule "brand" "blue"), ("tint", .text "brand"), ("border", .text "brand")]
    let one := Frame.empty.compile .lowercase true first ":root"
    let two := one.1.compile .lowercase true second ":root"
    (Frame.empty.compile .lowercase true (first ++ second) ":root").2.outcome = .ok ⟨"color:red;border:blue;", ""⟩ ∧
      (Frame.empty.compile .lowercase true (first ++ second) ":root").1 = two.1 ∧
      ∃ a b, one.2.outcome = .ok a ∧ two.2.outcome = .ok b ∧ a.join b = ⟨"color:red;border:blue;", ""⟩ := by
  intro rule first second one two
  have compiled : (Frame.empty.compile .lowercase true (first ++ second) ":root").2.outcome =
      .ok ⟨"color:red;border:blue;", ""⟩ := by cbv
  have splits := node_splits Frame.empty .lowercase first second ":root"
  exact ⟨compiled, splits.2.2 _ compiled, (splits.1 _).mp compiled⟩

end NestedCss
