import Mathlib
import NestedCss.Proofs.KeyRoles
import NestedCss.Proofs.StackedLevels
import NestedCss.Style.Template

namespace NestedCss

variable {B : Type}

/-- The selector that the block of a key is compiled for. An at-rule keeps the selector around it. -/
def blockSelector (selector key : String) : String :=
  if key.toList.head? = some '@' then selector else Selector.nest selector key

/-- The text that the block of a key adds to the nested rules, given what the block comes to. -/
def blockText (selector key : String) (inner : Fragment) : String :=
  let text := inner.render (blockSelector selector key)
  if key.toList.head? = some '@' then
    if text.isEmpty then "" else key ++ Fragment.braces text
  else text

variable [Expansion B]

namespace Level
variable {policy : CapturePolicy} {selector : String} {enclosing : Scope B} {level : Level B} {key : String}

/-- Of a key that opens a block, only the text that the block comes to finds its way into the level, unless the
key has two sigils or is the name of a macro. -/
theorem step_block {below : Option (Compiler B)} (plain : ¬ ['$', '$'] <+: key.toList)
    (unknown : Scope.find? (level.frame :: enclosing) key = none) (block : Node B) :
    level.step policy below selector enclosing (key, .node block) = (do
      let compiler ← enter below key
      let inner ← compiler block (blockSelector selector key) (level.frame :: enclosing)
      return level.emit (blockText selector key inner.fragment)) := by
  simp only [step, Role.of_block plain unknown]
  by_cases sign : key.toList.head? = some '@'
  · simp only [sign, if_true, atRule, blockSelector, blockText]
    refine bind_congr fun compiler => bind_congr fun inner => ?_
    split
    · rw [emit_nothing]
    · rfl
  · simp only [sign, if_false, nested, blockSelector, blockText]

/-- A node with a block that compiles has a level below it. -/
theorem below_of_block {levels : Nat} {before block after : Node B} {last : Level B}
    (reached : (Compiler.above policy levels before selector enclosing).outcome = .ok level)
    (plain : ¬ ['$', '$'] <+: key.toList) (unknown : Scope.find? (level.frame :: enclosing) key = none)
    (compiled : (Compiler.above policy levels (before ++ (key, .node block) :: after) selector enclosing).outcome =
      .ok last) : ∃ compiler : Compiler B, Compiler.below policy levels = some compiler := by
  rw [Compiler.above_eq] at reached compiled
  rw [steps_append, Report.outcome_bind_of_ok reached, steps_cons, step_block plain unknown] at compiled
  obtain ⟨_, opened, _⟩ := Report.outcome_bind_ok.mp compiled
  obtain ⟨compiler, entered, _⟩ := Report.outcome_bind_ok.mp opened
  exact ⟨compiler, enter_ok entered⟩

/-- What a node with a block comes to. Of the block only the text has a part in it. -/
theorem outcome_with_block {levels : Nat} {compiler : Compiler B} {before : Node B}
    (reached : (Compiler.above policy levels before selector enclosing).outcome = .ok level)
    (below : Compiler.below policy levels = some compiler) (plain : ¬ ['$', '$'] <+: key.toList)
    (unknown : Scope.find? (level.frame :: enclosing) key = none) (block after : Node B) :
    (Compiler.above policy levels (before ++ (key, .node block) :: after) selector enclosing).outcome =
      (do
        let inner ← compiler block (blockSelector selector key) (level.frame :: enclosing)
        let rest ← Level.steps policy (Compiler.below policy levels) selector enclosing
          ⟨level.frame, Fragment.empty⟩ after
        return (⟨rest.frame, level.fragment.body ++ rest.fragment.body,
          level.fragment.outside ++ blockText selector key inner.fragment ++ rest.fragment.outside⟩ :
            Level B)).outcome := by
  rw [Compiler.above_eq] at reached
  rw [Compiler.above_eq, steps_append, Report.outcome_bind_of_ok reached, steps_cons, step_block plain unknown, below]
  simp only [enter, pure_bind, bind_assoc]
  rw [← below]
  simp only [steps_of_frame (level.emit _), map_eq_pure_bind]
  rfl

end Level

/-- Another block in the place of one changes the text that it adds to the nested rules, and nothing else:
the declarations, the nested rules on both sides of it, and the frame that a table takes over stay the same.
If the node fails with the other block, its error is that of the other block, compiled for the selector, in
the scope and at the depth of its place. -/
theorem blocks_are_isolated {policy : CapturePolicy} {levels : Nat} {selector : String} {enclosing : Scope B}
    {before after block : Node B} {key : String} {level first : Level B}
    (reached : (Compiler.above policy levels before selector enclosing).outcome = .ok level)
    (plain : ¬ ['$', '$'] <+: key.toList) (unknown : Scope.find? (level.frame :: enclosing) key = none)
    (compiled : (Compiler.above policy levels (before ++ (key, .node block) :: after) selector enclosing).outcome =
      .ok first) (other : Node B) :
    ∃ compiler inner textAfter,
      Compiler.below policy levels = some compiler ∧
      (compiler block (blockSelector selector key) (level.frame :: enclosing)).outcome = .ok inner ∧
      first.fragment.outside = level.fragment.outside ++ blockText selector key inner.fragment ++ textAfter ∧
      (∀ second,
        (Compiler.above policy levels (before ++ (key, .node other) :: after) selector enclosing).outcome = .ok second →
          second.frame = first.frame ∧ second.fragment.body = first.fragment.body ∧
          ∃ innerOther,
            (compiler other (blockSelector selector key) (level.frame :: enclosing)).outcome = .ok innerOther ∧
            second.fragment.outside =
              level.fragment.outside ++ blockText selector key innerOther.fragment ++ textAfter) ∧
      ∀ e, (Compiler.above policy levels (before ++ (key, .node other) :: after) selector enclosing).outcome = .error e →
        (compiler other (blockSelector selector key) (level.frame :: enclosing)).outcome = .error e := by
  obtain ⟨compiler, below⟩ := Level.below_of_block reached plain unknown compiled
  rw [Level.outcome_with_block reached below plain unknown] at compiled
  obtain ⟨inner, compiledBlock, resting⟩ := Report.outcome_bind_ok.mp compiled
  obtain ⟨rest, compiledRest, finished⟩ := Report.outcome_bind_ok.mp resting
  cases finished
  -- Behind the block both nodes go on from the same frame, so that `rest` belongs to both.
  refine ⟨compiler, inner, _, below, compiledBlock, rfl, fun second compiledOther => ?_, fun e failed => ?_⟩
  · rw [Level.outcome_with_block reached below plain unknown] at compiledOther
    obtain ⟨innerOther, otherBlock, resting⟩ := Report.outcome_bind_ok.mp compiledOther
    rw [Report.outcome_bind_of_ok compiledRest] at resting
    cases resting
    exact ⟨rfl, rfl, innerOther, otherBlock, rfl⟩
  · rw [Level.outcome_with_block reached below plain unknown] at failed
    obtain failed | ⟨innerOther, _, resting⟩ := Report.outcome_bind_error.mp failed
    · exact failed
    · rw [Report.outcome_bind_of_ok compiledRest] at resting
      cases resting

/-- The first block defines the macro `m` anew and puts a token rule, the second one invokes `m`, and the
third one fails. Behind each of them `m` is still the macro that was defined before. -/
theorem blocks_are_isolated_redefined :
    let before : Node Closure := [("$$m", .callable .captured (.mk (.node [(.text "top", .argument 0)]) []))]
    let block : Node Closure := [("$$m", .callable .captured (.mk (.node []) [])),
      ("$$", .resolver fun _ _ => some "0"), ("left", .text "1")]
    let other : Node Closure := [("m", .text "2")]
    let broken : Node Closure := [("$$", .text "3")]
    let after : Node Closure := [("m", .text "4")]
    let run (inner : Node Closure) :=
      Compiler.above .lowercase 2 (before ++ ("@page", .node inner) :: after) ".x" [Frame.empty]
    ∃ (level first second : Level Closure) (compiler : Compiler Closure),
      (run block).outcome = .ok first ∧ first.fragment = ⟨"top:4;", "@page{.x{left:0;}}"⟩ ∧
      (run other).outcome = .ok second ∧ second.fragment = ⟨"top:4;", "@page{.x{top:2;}}"⟩ ∧
      second.frame = first.frame ∧ (run broken).outcome = .error (.notCallable "$$") ∧
      (compiler broken (blockSelector ".x" "@page") [level.frame, Frame.empty]).outcome = .error (.notCallable "$$") := by
  intro before block other broken after run
  have text : (Level.fragment <$> run block).outcome = .ok ⟨"top:4;", "@page{.x{left:0;}}"⟩ := by cbv
  have textOther : (Level.fragment <$> run other).outcome = .ok ⟨"top:4;", "@page{.x{top:2;}}"⟩ := by cbv
  obtain ⟨first, compiled, shown⟩ := Report.outcome_map_ok.mp text
  obtain ⟨second, compiledOther, shownOther⟩ := Report.outcome_map_ok.mp textOther
  have failed : (run broken).outcome = .error (.notCallable "$$") := rfl
  have isolated := blocks_are_isolated rfl (by decide) rfl compiled
  obtain ⟨_, _, _, _, _, _, succeeds, _⟩ := isolated other
  obtain ⟨compiler, _, _, _, _, _, _, fails⟩ := isolated broken
  exact ⟨_, first, second, compiler, compiled, shown, compiledOther, shownOther, (succeeds second compiledOther).1, failed,
    fails _ failed⟩

end NestedCss
