import NestedCss.Proofs.LevelSteps
import NestedCss.Proofs.ScopeAgreement

namespace NestedCss

variable {B : Type}

namespace Scope

/-- Which macro a name stands for depends only on what is seen of a scope when it is flattened. -/
theorem find?_congr {one other : Scope B} (same : one.flatten = other.flatten) (name : String) :
    one.find? name = other.find? name := by
  rw [← find?_flatten one, same, find?_flatten]

theorem chain_congr {one other : Scope B} (same : one.flatten = other.flatten) : one.chain = other.chain := by
  rw [← chain_flatten one, same, chain_flatten]

theorem flatten_congr {one other : Scope B}
    (definitions : one.flatMap Frame.definitions = other.flatMap Frame.definitions) (chain : one.chain = other.chain) :
    one.flatten = other.flatten := by
  simp only [flatten, definitions, chain]

/-- Scopes that show the same still do behind one more frame. -/
theorem flatten_cons {one other : Scope B} (same : one.flatten = other.flatten) (frame : Frame B) :
    flatten (frame :: one) = flatten (frame :: other) := by
  have definitions : one.flatMap Frame.definitions = other.flatMap Frame.definitions := by
    simp only [flatten, List.cons.injEq, Frame.mk.injEq] at same
    exact same.1.1
  refine flatten_congr ?_ ?_
  · rw [List.flatMap_cons, List.flatMap_cons, definitions]
  · rw [chain_cons, chain_cons, chain_congr same]

/-- A frame without definitions and without a chain is not seen. -/
theorem flatten_empty_cons (scope : Scope B) : flatten (Frame.empty :: scope) = flatten scope :=
  flatten_congr rfl (chain_cons _ _)

/-- Merging a frame into another one looks the same as putting it in front of that one. -/
theorem flatten_merge (frame exported : Frame B) (scope : Scope B) :
    flatten (frame.merge exported :: scope) = flatten (exported :: frame :: scope) := by
  refine flatten_congr ?_ (chain_merge frame exported scope)
  simp only [List.flatMap_cons, Frame.merge, List.append_assoc]

end Scope

/-- What a key means depends on what is seen of the scope, and not on its frames. -/
theorem Role.of_congr {one other : Scope B} (same : one.flatten = other.flatten) (key : String) (value : Value B) :
    Role.of one key value = Role.of other key value := by
  unfold Role.of
  rw [Scope.find?_congr same]

theorem definition_congr {one other : Scope B} (same : one.flatten = other.flatten) (policy : CapturePolicy)
    (name : String) (value : Value B) : definition policy name one value = definition policy name other value := by
  unfold definition
  rw [same]

theorem declaration_congr {one other : Scope B} (same : one.flatten = other.flatten) (key : String)
    (value : Value B) : declaration one key value = declaration other key value := by
  unfold declaration
  rw [Scope.chain_congr same]

/-- A compiler that does not see how the macros around a node are spread over frames. -/
def Compiler.Flat (compiler : Compiler B) : Prop :=
  ∀ (node : Node B) (selector : String) {one other : Scope B}, one.flatten = other.flatten →
    compiler node selector one = compiler node selector other

namespace Frame

@[simp] theorem empty_merge (frame : Frame B) : empty.merge frame = frame := by
  cases frame
  simp [merge, empty]

@[simp] theorem merge_empty (frame : Frame B) : frame.merge empty = frame := by
  cases frame
  simp [merge, empty]

theorem merge_assoc (first second third : Frame B) :
    first.merge (second.merge third) = (first.merge second).merge third := by
  simp only [merge, List.append_assoc, Option.or_assoc]

end Frame

namespace Level

@[simp] theorem start_absorb (level : Level B) : start.absorb level = level := by
  simp [absorb, start]

@[simp] theorem absorb_start (level : Level B) : level.absorb start = level := by
  simp [absorb, start]

theorem absorb_absorb (level inner expansion : Level B) :
    level.absorb (inner.absorb expansion) = (level.absorb inner).absorb expansion := by
  simp only [absorb, Frame.merge_assoc, Fragment.join_assoc]

theorem absorb_declare (level inner : Level B) (text : String) :
    level.absorb (inner.declare text) = (level.absorb inner).declare text := by
  simp only [absorb, declare, Fragment.join, String.append_assoc]

theorem absorb_emit (level inner : Level B) (text : String) :
    level.absorb (inner.emit text) = (level.absorb inner).emit text := by
  simp only [absorb, emit, Fragment.join, String.append_assoc]

theorem absorb_define (level inner : Level B) (name : String) (entry : Macro B) :
    level.absorb (inner.define name entry) = (level.absorb inner).define name entry := by
  simp only [absorb, define, Frame.define, Frame.merge, List.cons_append]

variable {level : Level B} {inside around : Scope B}

/-- Here and below, a level stands inside another one whose frame it sees in front of the scope around. What can
be seen from it stays the same if the outer level takes it over. -/
theorem absorb_seen (same : inside.flatten = Scope.flatten (level.frame :: around)) (inner : Level B) :
    Scope.flatten (inner.frame :: inside) = Scope.flatten ((level.absorb inner).frame :: around) :=
  (Scope.flatten_cons same inner.frame).trans (Scope.flatten_merge level.frame inner.frame around).symm

/-- A token rule is put in front of the same chain, whether the inner level is taken over before or afterwards. -/
theorem absorb_putRule (same : inside.flatten = Scope.flatten (level.frame :: around)) (inner : Level B)
    (rule : TokenRule) : level.absorb (inner.putRule inside rule) = (level.absorb inner).putRule around rule := by
  have chain := Scope.chain_congr (absorb_seen same inner)
  simp only [absorb] at chain
  simp only [absorb, putRule, Frame.putRule, Frame.merge, chain, Option.some_or]

section Blocks
variable {below : Option (Compiler B)} {selector : String}

theorem absorb_atRule (flat : ∀ compiler ∈ below, Compiler.Flat compiler)
    (same : inside.flatten = Scope.flatten (level.frame :: around)) (inner : Level B) (key : String)
    (value : Value B) :
    level.absorb <$> inner.atRule below selector inside key value =
      (level.absorb inner).atRule below selector around key value := by
  unfold atRule
  split
  · cases below with
    | none => rfl
    | some compiler =>
      rename_i block
      have blocks := flat compiler rfl block selector (absorb_seen same inner)
      simp only [enter, pure_bind, map_bind, blocks]
      refine bind_congr fun opened => ?_
      split
      · rfl
      · rw [map_pure, absorb_emit]
  · split
    · rw [map_pure, absorb_emit]
    · rfl

theorem absorb_nested (flat : ∀ compiler ∈ below, Compiler.Flat compiler)
    (same : inside.flatten = Scope.flatten (level.frame :: around)) (inner : Level B) (key : String)
    (value : Value B) :
    level.absorb <$> inner.nested below selector inside key value =
      (level.absorb inner).nested below selector around key value := by
  unfold nested
  split
  · cases below with
    | none => rfl
    | some compiler =>
      rename_i block
      have blocks := flat compiler rfl block (Selector.nest selector key) (absorb_seen same inner)
      simp only [enter, pure_bind, map_bind, blocks]
      refine bind_congr fun opened => ?_
      rw [map_pure, absorb_emit]
  · rfl

end Blocks

variable [Expansion B] {below : Option (Compiler B)} {selector : String}

/-- The invocation of a macro comes to the same. If the macro captures nothing, its expansion sees the frames of
both levels, in one form or the other. -/
theorem absorb_invoke (flat : ∀ compiler ∈ below, Compiler.Flat compiler)
    (same : inside.flatten = Scope.flatten (level.frame :: around)) (inner : Level B) (key : String)
    (value : Value B) (entry : Macro B) :
    level.absorb <$> inner.invoke below selector inside key value entry =
      (level.absorb inner).invoke below selector around key value entry := by
  obtain ⟨body, captured⟩ := entry
  unfold invoke
  cases below with
  | none => rfl
  | some compiler =>
    cases body with
    | none => rfl
    | some body =>
      have expansions : compiler (Expansion.expand body value) selector (captured.getD (inner.frame :: inside)) =
          compiler (Expansion.expand body value) selector (captured.getD ((level.absorb inner).frame :: around)) := by
        cases captured with
        | none => exact flat compiler rfl _ _ (absorb_seen same inner)
        | some scope => rfl
      simp only [enter, pure_bind, map_bind, expansions]
      refine bind_congr fun expansion => ?_
      rw [map_pure, absorb_absorb]

/-- A key that is taken on top of a level and then taken over by it is taken at that level. -/
theorem absorb_step (policy : CapturePolicy) (flat : ∀ compiler ∈ below, Compiler.Flat compiler)
    (same : inside.flatten = Scope.flatten (level.frame :: around)) (inner : Level B) (entry : String × Value B) :
    level.absorb <$> inner.step policy below selector inside entry =
      (level.absorb inner).step policy below selector around entry := by
  obtain ⟨key, value⟩ := entry
  have seen := absorb_seen same inner
  unfold step
  simp only [Role.of_congr seen]
  cases Role.of ((level.absorb inner).frame :: around) key value with
  | rule =>
    cases value with
    | resolver rule => exact congrArg Pure.pure (absorb_putRule same inner rule)
    | _ => rfl
  | define name =>
    simp only [definition_congr seen, map_bind, map_pure, absorb_define]
  | invoke entry => exact absorb_invoke flat same inner key value entry
  | property =>
    simp only [declaration_congr seen, map_pure, absorb_declare]
  | atRule => exact absorb_atRule flat same inner key value
  | selector => exact absorb_nested flat same inner key value

/-- The keys of a node come to the same on top of a level that then takes them over as at that level itself. -/
theorem absorb_steps (policy : CapturePolicy) (flat : ∀ compiler ∈ below, Compiler.Flat compiler)
    (same : inside.flatten = Scope.flatten (level.frame :: around)) (inner : Level B) (node : Node B) :
    level.absorb <$> inner.steps policy below selector inside node =
      (level.absorb inner).steps policy below selector around node := by
  unfold steps
  induction node generalizing inner with
  | nil => exact map_pure _ _
  | cons entry rest ih =>
    rw [List.foldlM_cons, List.foldlM_cons, map_bind, ← absorb_step policy flat same inner entry, bind_map_left]
    exact bind_congr fun next => ih next

/-- A node comes to the same in scopes that show the same: its keys are taken on top of an empty level, and that
level is not seen. -/
theorem steps_flat (policy : CapturePolicy) (flat : ∀ compiler ∈ below, Compiler.Flat compiler)
    (same : inside.flatten = around.flatten) (node : Node B) :
    Level.start.steps policy below selector inside node = Level.start.steps policy below selector around node := by
  have stacked : inside.flatten = Scope.flatten ((start : Level B).frame :: around) :=
    same.trans (Scope.flatten_empty_cons around).symm
  have nothing : (start : Level B).absorb = id := funext start_absorb
  have taken : start.absorb <$> start.steps policy below selector inside node =
      start.steps policy below selector around node := absorb_steps policy flat stacked start node
  rwa [nothing, id_map] at taken

end Level

variable [Expansion B]

/-- However deep a compiler goes, it does not see the frames. -/
theorem Compiler.above_flat (policy : CapturePolicy) (levels : Nat) :
    Compiler.Flat (Compiler.above policy levels : Compiler B) := by
  induction levels with
  | zero => exact fun node _ _ _ same => Level.steps_flat policy (by simp) same node
  | succ levels ih => exact fun node _ _ _ same => Level.steps_flat policy (by simpa using ih) same node

theorem Compiler.below_flat (policy : CapturePolicy) (levels : Nat) :
    ∀ compiler ∈ (Compiler.below policy levels : Option (Compiler B)), Compiler.Flat compiler := by
  cases levels with
  | zero => simp [Compiler.below]
  | succ levels => simpa [Compiler.below] using Compiler.above_flat policy levels

namespace Level
variable {policy : CapturePolicy} {levels : Nat} {selector : String} {inside around : Scope B}

/-- A node that is compiled on its own in the scope of a level, and is then taken over by the level,
comes to its keys being taken at that level. -/
theorem absorb_compiled (level : Level B) (same : inside.flatten = Scope.flatten (level.frame :: around))
    (node : Node B) :
    level.absorb <$> Compiler.above policy levels node selector inside =
      level.steps policy (Compiler.below policy levels) selector around node := by
  rw [Compiler.above_eq, absorb_steps policy (Compiler.below_flat policy levels) same, absorb_start]

/-- The text of a level has no part in what follows. -/
theorem steps_of_frame (level : Level B) (node : Node B) :
    level.steps policy (Compiler.below policy levels) selector around node =
      (fun rest => ⟨rest.frame, level.fragment.join rest.fragment⟩) <$>
        Level.steps policy (Compiler.below policy levels) selector around ⟨level.frame, Fragment.empty⟩ node := by
  have stacked : around.flatten = Scope.flatten (Frame.empty :: around) := (Scope.flatten_empty_cons around).symm
  have inFront : (⟨Frame.empty, level.fragment⟩ : Level B).absorb =
      fun rest => ⟨rest.frame, level.fragment.join rest.fragment⟩ := funext fun rest => by simp [absorb]
  have whole : (⟨Frame.empty, level.fragment⟩ : Level B).absorb ⟨level.frame, Fragment.empty⟩ = level := by
    simp [absorb]
  rw [← inFront, absorb_steps policy (Compiler.below_flat policy levels) stacked, whole]

end Level

end NestedCss
