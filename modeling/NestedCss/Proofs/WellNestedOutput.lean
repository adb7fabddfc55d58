import NestedCss.Proofs.KeyRoles
import NestedCss.Proofs.LevelSteps
import NestedCss.Proofs.StyleItems
import NestedCss.Style.Template

namespace NestedCss

variable {B : Type} [Expansion B]

/-- Taking the keys of a node comes to one that writes something, in the node, in an expansion or in a block,
however deep: a property, or an at-rule with a primitive value. -/
inductive Writes (policy : CapturePolicy) : Nat → String → Scope B → Level B → Node B → Prop
  | property {levels selector enclosing level key value rest} :
      Role.of (level.frame :: enclosing) key value = .property →
      Writes policy levels selector enclosing level ((key, value) :: rest)
  | statement {levels selector enclosing level key value rest} :
      Role.of (level.frame :: enclosing) key value = .atRule → value.isPrimitive = true →
      Writes policy levels selector enclosing level ((key, value) :: rest)
  | expansion {levels selector enclosing level key value body captured rest} :
      Role.of (level.frame :: enclosing) key value = .invoke ⟨some body, captured⟩ →
      Writes policy levels selector (captured.getD (level.frame :: enclosing)) .start (Expansion.expand body value) →
      Writes policy (levels + 1) selector enclosing level ((key, value) :: rest)
  | atRule {levels selector enclosing level key block rest} :
      Role.of (level.frame :: enclosing) key (.node block) = .atRule →
      Writes policy levels selector (level.frame :: enclosing) .start block →
      Writes policy (levels + 1) selector enclosing level ((key, .node block) :: rest)
  | nested {levels selector enclosing level key block rest} :
      Role.of (level.frame :: enclosing) key (.node block) = .selector →
      Writes policy levels (Selector.nest selector key) (level.frame :: enclosing) .start block →
      Writes policy (levels + 1) selector enclosing level ((key, .node block) :: rest)
  | later {levels selector enclosing level key value next rest} :
      (level.step policy (Compiler.below policy levels) selector enclosing (key, value)).outcome = .ok next →
      Writes policy levels selector enclosing next rest →
      Writes policy levels selector enclosing level ((key, value) :: rest)

namespace Writes
variable {policy : CapturePolicy} {levels : Nat} {selector : String} {enclosing : Scope B} {level next : Level B}
  {key : String} {value : Value B} {rest : Node B}

theorem not_nil : ¬ Writes policy levels selector enclosing level ([] : Node B) := nofun

/-- A node writes something if its first key does, or the others from the level that this has led to. -/
theorem cons_iff
    (stepped : (level.step policy (Compiler.below policy levels) selector enclosing (key, value)).outcome = .ok next) :
    Writes policy levels selector enclosing level ((key, value) :: rest) ↔
      Writes policy levels selector enclosing level [(key, value)] ∨
        Writes policy levels selector enclosing next rest := by
  constructor
  · intro writes
    cases writes with
    | property role => exact .inl (.property role)
    | statement role primitive => exact .inl (.statement role primitive)
    | expansion role inner => exact .inl (.expansion role inner)
    | atRule role inner => exact .inl (.atRule role inner)
    | nested role inner => exact .inl (.nested role inner)
    | later taken behind =>
      cases stepped.symm.trans taken
      exact .inr behind
  · rintro (here | behind)
    · cases here with
      | property role => exact .property role
      | statement role primitive => exact .statement role primitive
      | expansion role inner => exact .expansion role inner
      | atRule role inner => exact .atRule role inner
      | nested role inner => exact .nested role inner
      | later _ behind => exact absurd behind not_nil
    · exact .later stepped behind

/-- Where the first key alone writes follows from its role. -/
theorem single_iff : Writes policy levels selector enclosing level [(key, value)] ↔
    match Role.of (level.frame :: enclosing) key value with
    | .property => True
    | .atRule => value.isPrimitive = true ∨ ∃ lower block, levels = lower + 1 ∧ value = .node block ∧
        Writes policy lower selector (level.frame :: enclosing) .start block
    | .selector => ∃ lower block, levels = lower + 1 ∧ value = .node block ∧
        Writes policy lower (Selector.nest selector key) (level.frame :: enclosing) .start block
    | .invoke ⟨some body, captured⟩ => ∃ lower, levels = lower + 1 ∧
        Writes policy lower selector (captured.getD (level.frame :: enclosing)) .start (Expansion.expand body value)
    | _ => False := by
  constructor
  · intro writes
    cases writes with
    | property role => simp only [role]
    | statement role primitive =>
      simp only [role]
      exact .inl primitive
    | expansion role inner =>
      simp only [role]
      exact ⟨_, rfl, inner⟩
    | atRule role inner =>
      simp only [role]
      exact .inr ⟨_, _, rfl, rfl, inner⟩
    | nested role inner =>
      simp only [role]
      exact ⟨_, _, rfl, rfl, inner⟩
    | later _ behind => exact absurd behind not_nil
  · intro writes
    split at writes
    · rename_i role
      exact .property role
    · rename_i role
      rcases writes with primitive | ⟨lower, block, rfl, rfl, inner⟩
      · exact .statement role primitive
      · exact .atRule role inner
    · rename_i role
      obtain ⟨lower, block, rfl, rfl, inner⟩ := writes
      exact .nested role inner
    · rename_i role
      obtain ⟨lower, rfl, inner⟩ := writes
      exact .expansion role inner
    · exact writes.elim

end Writes

namespace Level
variable {policy : CapturePolicy} {levels : Nat} {selector : String} {enclosing : Scope B} {level next last : Level B}
  {key : String} {value : Value B}

/-- What the level below makes of a node consists of declarations and items. -/
def BelowConsists (policy : CapturePolicy) (levels : Nat) : Prop :=
  ∀ lower, levels = lower + 1 → ∀ (node : Node B) (selector : String) (scope : Scope B) (last : Level B),
    (Compiler.above policy lower node selector scope).outcome = .ok last →
      last.fragment.Consists (Writes policy lower selector scope .start node)

theorem BelowConsists.block (below : BelowConsists (B := B) policy levels) {block : Node B} {scope : Scope B}
    {finish : Level B → Report (Level B)}
    (taken : (do
      let compiler ← enter (Compiler.below policy levels) key
      let inner ← compiler block selector scope
      finish inner).outcome = .ok next) :
    ∃ lower inner items, levels = lower + 1 ∧ inner.fragment.render selector = Item.texts items ∧
      (items = [] ↔ ¬ Writes policy lower selector scope .start block) ∧ (finish inner).outcome = .ok next := by
  obtain ⟨compiler, entered, compiled⟩ := Report.outcome_bind_ok.mp taken
  obtain ⟨inner, compiledBlock, finished⟩ := Report.outcome_bind_ok.mp compiled
  obtain ⟨lower, rfl, rfl⟩ := Compiler.below_eq_some (enter_ok entered)
  obtain ⟨items, shown, quiet⟩ := (below lower rfl _ _ _ _ compiledBlock).render selector
  exact ⟨lower, inner, items, rfl, shown, quiet, finished⟩

/-- An at-rule adds one item or none, and none exactly if it writes nothing. -/
theorem atRule_grows (below : BelowConsists (B := B) policy levels)
    (role : Role.of (level.frame :: enclosing) key value = .atRule)
    (taken : (level.atRule (Compiler.below policy levels) selector enclosing key value).outcome = .ok next) :
    level.Grows next (Writes policy levels selector enclosing level [(key, value)]) := by
  have isAtRule := Role.of_eq_atRule role
  rw [Writes.single_iff, role]
  cases value with
  | node block =>
    obtain ⟨lower, inner, items, rfl, shown, quiet, finished⟩ := below.block taken
    cases finished
    simp only [shown]
    exact .block isAtRule (by simpa [Value.isPrimitive] using quiet)
  | text content =>
    cases taken
    simpa [Value.isPrimitive] using Grows.statement isAtRule content
  | number content =>
    cases taken
    simpa [Value.isPrimitive] using Grows.statement isAtRule (Number.text content)
  | callable =>
    cases taken
    exact .of_same rfl (by simp [Value.isPrimitive])
  | resolver =>
    cases taken
    exact .of_same rfl (by simp [Value.isPrimitive])

theorem nested_grows (below : BelowConsists (B := B) policy levels)
    (role : Role.of (level.frame :: enclosing) key value = .selector)
    (taken : (level.nested (Compiler.below policy levels) selector enclosing key value).outcome = .ok next) :
    level.Grows next (Writes policy levels selector enclosing level [(key, value)]) := by
  rw [Writes.single_iff, role]
  cases value with
  | node block =>
    obtain ⟨lower, inner, items, rfl, shown, quiet, finished⟩ := below.block taken
    cases finished
    rw [shown]
    exact .emit (by simpa using quiet)
  | _ =>
    cases taken
    exact .of_same rfl (by simp)

/-- Each key adds declarations and items only. -/
theorem step_grows (below : BelowConsists (B := B) policy levels)
    (stepped : (level.step policy (Compiler.below policy levels) selector enclosing (key, value)).outcome = .ok next) :
    level.Grows next (Writes policy levels selector enclosing level [(key, value)]) := by
  cases step_ok stepped with
  | rule role =>
    rw [Writes.single_iff, role]
    exact .of_same rfl not_false
  | define role =>
    rw [Writes.single_iff, role]
    exact .of_same rfl not_false
  | invoke role deeper compiled =>
    obtain ⟨lower, rfl, rfl⟩ := Compiler.below_eq_some deeper
    rw [Writes.single_iff, role]
    exact .absorb (by simpa using below lower rfl _ _ _ _ compiled)
  | declare role =>
    rw [Writes.single_iff, role]
    exact .declare (Role.of_eq_property role).2 _ _
  | atRule role taken => exact atRule_grows below role taken
  | nested role taken => exact nested_grows below role taken

theorem steps_grow (below : BelowConsists (B := B) policy levels) {node : Node B}
    (taken : (level.steps policy (Compiler.below policy levels) selector enclosing node).outcome = .ok last) :
    level.Grows last (Writes policy levels selector enclosing level node) := by
  induction node generalizing level with
  | nil =>
    cases taken
    exact .of_same rfl Writes.not_nil
  | cons entry rest ih =>
    obtain ⟨next, stepped, later⟩ := steps_cons_ok.mp taken
    rw [Writes.cons_iff stepped]
    exact (step_grows below stepped).trans (ih later)

/-- It is so however many levels are left below. -/
theorem below_consists (policy : CapturePolicy) (levels : Nat) : BelowConsists (B := B) policy levels := by
  -- A block or an expansion is one level further down, so the induction is on the levels and not on the node.
  induction levels with
  | zero => exact nofun
  | succ levels ih =>
    intro lower same node selector scope last compiled
    obtain rfl := Nat.succ.inj same
    rw [Compiler.above_eq] at compiled
    obtain ⟨added, grown, consists⟩ := steps_grow ih compiled
    rw [grown]
    simpa [start] using consists

end Level

/-- Where a node compiles, its text is a list of rules, at-rule blocks and at-rule statements one behind the
other. No rule or block in it is empty, however deep, and every declaration has a proper name. There is no
text exactly if taking the keys, those of expansions and blocks included, comes to no property and to no
at-rule with a primitive value. -/
theorem output_is_well_nested {policy : CapturePolicy} {node : Node B} {selector text : String} {scope : Scope B}
    (rendered : (renderNode policy node selector scope).outcome = .ok text) :
    (∃ items, text = Item.texts items) ∧
      (text = "" ↔ ¬ Writes policy Compiler.levels selector scope .start node) := by
  obtain ⟨last, compiled, finished⟩ := Report.outcome_bind_ok.mp rendered
  obtain ⟨items, shown, quiet⟩ :=
    (Level.below_consists policy _ Compiler.levels rfl node selector scope last compiled).render selector
  cases finished
  exact ⟨⟨items, shown⟩, by rw [shown, Item.texts_eq_empty_iff, quiet]⟩

/-- A macro declares, a block in an at-rule does, and so does a nested one; a block without declarations is not
put. In the second node there is nothing else. -/
theorem output_is_well_nested_pad :
    let pad : Value Closure := .callable .captured (.mk (.node [(.text "paddingTop", .argument 0)]) [])
    let printed : Value Closure := .node [("pad", .text "0")]
    let hover : Value Closure := .node [("$gap", .text "2"), (".x", .node [])]
    let node : Node Closure := [("$$pad", pad), ("pad", .text "1"), ("@layer", .text "base"), ("@print", printed),
      ("&:hover", hover)]
    let silent : Node Closure := [("$$pad", pad), ("@print", .node [(".x", .node [])]), (".y", .text "1")]
    let text := ".a\x7bpadding-top:1;\x7d@layer base;@print\x7b.a\x7bpadding-top:0;\x7d\x7d.a:hover\x7b--gap:2;\x7d"
    (∃ items, text = Item.texts items) ∧ Writes .lowercase Compiler.levels ".a" [] .start node ∧
      ¬ Writes .lowercase Compiler.levels ".a" [] .start silent := by
  intro pad printed hover node silent text
  have rendered : (renderNode .lowercase node ".a" []).outcome = .ok text := by cbv
  have nothing : (renderNode .lowercase silent ".a" []).outcome = .ok "" := by cbv
  obtain ⟨nested, empty⟩ := output_is_well_nested rendered
  refine ⟨nested, ?_, (output_is_well_nested nothing).2.mp rfl⟩
  by_contra writesNot
  exact absurd (empty.mpr writesNot) (by decide)

end NestedCss
