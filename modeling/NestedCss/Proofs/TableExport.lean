import Mathlib
import NestedCss.Proofs.InstanceStability
import NestedCss.Proofs.LevelSteps
import NestedCss.Proofs.ScopeAgreement
import NestedCss.Style.Template

namespace NestedCss

variable {B : Type}

/-- What a table holds after definitions were made over it, one after another. -/
structure Frame.Overlaid (before : Frame B) (made : List (String × Macro B)) (after : Frame B) : Prop where
  /-- A name that was defined has the definition behind which it was not defined again. -/
  last : ∀ earlier name entry later, made = earlier ++ (name, entry) :: later → name ∉ later.map Prod.fst →
    after.find? name = some entry
  other : ∀ name, name ∉ made.map Prod.fst → after.find? name = before.find? name
  names : ∀ name, name ∈ after.names ↔ name ∈ before.names ∨ name ∈ made.map Prod.fst

namespace Frame

theorem mem_names {frame : Frame B} {name : String} : name ∈ frame.names ↔ name ∈ frame.definitions.map Prod.fst := by
  rw [names, List.mem_mergeSort, List.mem_eraseDups]

theorem lookup_reverse_eq_none {made : List (String × Macro B)} {name : String} (missing : name ∉ made.map Prod.fst) :
    made.reverse.lookup name = none := by
  rw [List.lookup_eq_none_iff]
  intro pair member
  have present := List.mem_map_of_mem (f := Prod.fst) (List.mem_reverse.mp member)
  exact bne_iff_ne.mpr fun same => missing (same ▸ present)

theorem Overlaid.of_definitions {before after : Frame B} {made : List (String × Macro B)}
    (definitions : after.definitions = made.reverse ++ before.definitions) : before.Overlaid made after where
  last earlier name entry later split missing := by
    rw [find?, definitions, List.lookup_append, split, List.reverse_append, List.lookup_append, List.reverse_cons,
      List.lookup_append, lookup_reverse_eq_none missing]
    simp
  other name missing := by
    rw [find?, definitions, List.lookup_append, lookup_reverse_eq_none missing]
    rfl
  names name := by
    rw [mem_names, mem_names, definitions]
    simp [or_comm]

end Frame

variable [Expansion B]

/-- The keys of a node taken one after another without an error, and the definitions that they make at the
level, in order: those of its own `$$name` keys and those that an expansion makes at its level. A block that
a key opens makes none. -/
inductive DefinitionTrace (policy : CapturePolicy) (selector : String) :
    Nat → Scope B → Level B → Node B → Level B → List (String × Macro B) → Prop
  | done {levels enclosing level} : DefinitionTrace policy selector levels enclosing level [] level []
  | define {levels enclosing level key value name entry rest last made} :
      Role.of (level.frame :: enclosing) key value = .define name →
      (definition policy name (level.frame :: enclosing) value).outcome = .ok entry →
      DefinitionTrace policy selector levels enclosing (level.define name entry) rest last made →
      DefinitionTrace policy selector levels enclosing level ((key, value) :: rest) last ((name, entry) :: made)
  | invoke {levels enclosing level key value body captured expansion inner rest last made} :
      Role.of (level.frame :: enclosing) key value = .invoke ⟨some body, captured⟩ →
      DefinitionTrace policy selector levels (captured.getD (level.frame :: enclosing)) .start
        (Expansion.expand body value) expansion inner →
      DefinitionTrace policy selector (levels + 1) enclosing (level.absorb expansion) rest last made →
      DefinitionTrace policy selector (levels + 1) enclosing level ((key, value) :: rest) last (inner ++ made)
  | quiet {levels enclosing level key value next rest last made} :
      (∀ name, Role.of (level.frame :: enclosing) key value ≠ .define name) →
      (∀ entry, Role.of (level.frame :: enclosing) key value ≠ .invoke entry) →
      (level.step policy (Compiler.below policy levels) selector enclosing (key, value)).outcome = .ok next →
      DefinitionTrace policy selector levels enclosing next rest last made →
      DefinitionTrace policy selector levels enclosing level ((key, value) :: rest) last made

namespace DefinitionTrace
variable {policy : CapturePolicy} {selector : String} {levels : Nat} {enclosing : Scope B} {level last : Level B}
  {node : Node B}

/-- Every node that compiles has a trace. -/
theorem of_steps
    (taken : (level.steps policy (Compiler.below policy levels) selector enclosing node).outcome = .ok last) :
    ∃ made, DefinitionTrace policy selector levels enclosing level node last made := by
  refine Level.steps_induction (motive := fun levels enclosing level node last =>
    ∃ made, DefinitionTrace policy selector levels enclosing level node last made) ?done ?own ?invoke taken
  case done => exact fun _ _ _ => ⟨_, .done⟩
  case own =>
    intro _ _ _ key value _ _ _ noInvoke stepped ⟨made, trace⟩
    cases Level.step_ok stepped with
    | define role defined => exact ⟨_, .define role defined trace⟩
    | invoke role => exact absurd role (noInvoke _)
    | rule role => exact ⟨_, .quiet (by simp [role]) noInvoke stepped trace⟩
    | declare role => exact ⟨_, .quiet (by simp [role]) noInvoke stepped trace⟩
    | atRule role => exact ⟨_, .quiet (by simp [role]) noInvoke stepped trace⟩
    | nested role => exact ⟨_, .quiet (by simp [role]) noInvoke stepped trace⟩
  case invoke =>
    intro _ _ _ key value _ _ _ _ _ role ⟨_, expanded⟩ ⟨_, trace⟩
    exact ⟨_, .invoke role expanded trace⟩

/-- A trace is one of a node that compiles, and ends at the level that it comes to. -/
theorem taken {made : List (String × Macro B)}
    (trace : DefinitionTrace policy selector levels enclosing level node last made) :
    (level.steps policy (Compiler.below policy levels) selector enclosing node).outcome = .ok last := by
  induction trace with
  | done => rfl
  | define role defined _ ih =>
    refine Level.steps_cons_ok.mpr ⟨_, ?_, ih⟩
    simp only [Level.step, role]
    rw [Report.outcome_bind_of_ok defined]
    rfl
  | invoke role _ _ expanded ih =>
    refine Level.steps_cons_ok.mpr ⟨_, ?_, ih⟩
    rw [← Compiler.above_eq] at expanded
    simp only [Level.step, role, Level.invoke, Compiler.below, enter, pure_bind]
    rw [Report.outcome_bind_of_ok expanded]
    rfl
  | quiet _ _ stepped _ ih => exact Level.steps_cons_ok.mpr ⟨_, stepped, ih⟩

/-- A level holds what its keys have defined, the newest first, in front of what it held before. -/
theorem definitions_eq {made : List (String × Macro B)}
    (trace : DefinitionTrace policy selector levels enclosing level node last made) :
    last.frame.definitions = made.reverse ++ level.frame.definitions := by
  induction trace with
  | done => rfl
  | define _ _ _ ih =>
    rw [ih, List.reverse_cons, List.append_assoc]
    rfl
  | @invoke _ _ level _ _ _ _ expansion inner _ _ _ _ _ _ inside ih =>
    have taken : (level.absorb expansion).frame.definitions = inner.reverse ++ level.frame.definitions := by
      simp only [Level.absorb, Frame.merge, inside]
      simp [Level.start, Frame.empty]
    rw [ih, taken, List.reverse_append, List.append_assoc]
  | @quiet _ _ level _ _ next _ _ _ noDefine noInvoke stepped _ ih =>
    -- Whatever a block defines, only its text reaches the level.
    have same : next.frame.definitions = level.frame.definitions := by
      cases Level.step_ok stepped with
      | define role => exact absurd role (noDefine _)
      | invoke role => exact absurd role (noInvoke _)
      | _ => rfl
    rw [ih, same]

end DefinitionTrace

/-- What a compilation does to a table. Without an export, and where it fails, at whatever key and however
deep, the table stays as it was. If it succeeds and is exported, the table takes over the definitions of the
outermost level and nothing else. An instance at work does not export, so that no command changes what
compiling on an instance comes to. -/
theorem export_is_atomic_and_exact (policy : CapturePolicy) :
    (∀ (table : Frame B) (node : Node B) (selector : String), (table.compile policy false node selector).1 = table) ∧
      (∀ (table : Frame B) (node : Node B) (selector : String) (e : CompileError),
        (table.compile policy true node selector).2.outcome = .error e →
          (table.compile policy true node selector).1 = table) ∧
      (∀ (table : Frame B) (node : Node B) (selector : String) (fragment : Fragment),
        (table.compile policy true node selector).2.outcome = .ok fragment →
          (∃ level made, DefinitionTrace policy selector Compiler.levels [table] .start node level made) ∧
            ∀ level made, DefinitionTrace policy selector Compiler.levels [table] .start node level made →
              table.Overlaid made (table.compile policy true node selector).1) ∧
      ∀ (s : Session B) (commands : List (Nat × Command B)) (index : Nat), (index, .drop) ∉ commands →
        ∀ node selector, ((s.performAll commands).perform index (.compile node selector)).2 =
          (s.perform index (.compile node selector)).2 := by
  refine ⟨fun _ _ _ => Frame.compile_unexported, fun _ _ _ _ failed => ?_, ?_, ?_⟩
  · exact Frame.compile_failed (Frame.compile_error.mp failed)
  · intro table node selector fragment compiled
    constructor
    · obtain ⟨level, taken, _⟩ := Frame.compile_ok.mp compiled
      rw [compile, Compiler.above_eq] at taken
      exact ⟨level, DefinitionTrace.of_steps taken⟩
    · intro level made trace
      have taken := trace.taken
      rw [← Compiler.above_eq, ← compile] at taken
      have own : level.frame.definitions = made.reverse := by simpa [Level.start, Frame.empty] using trace.definitions_eq
      refine .of_definitions ?_
      rw [Frame.compile_exported taken, Frame.merge, own]
  · intro s commands index kept node selector
    rw [Session.perform_compile, Session.perform_compile, Session.compilation_performAll s kept]

/-- The node defines `O`, whose expansion defines `i`, and `h` in a block. In front of a key that fails in
a block it exports nothing. -/
theorem export_is_atomic_and_exact_outer :
    let callable (entries : List (Template × Template)) : Value Closure := .callable .byName (.mk (.node entries) [])
    let node : Node Closure := [("$$O", callable [(.text "$$i", .callable .shared (.node []))]),
      ("O", .text ""), ("@p", .node [("$$h", callable [])])]
    let failing : Node Closure := node ++ [("@q", .node [("$$", .text "")])]
    let after := (Frame.empty.compile .lowercase true node "a").1
    let session : Session Closure := ⟨[⟨some ⟨"a", .lowercase, after, .initial⟩, true⟩], ⟨[], [[]], []⟩⟩
    let commands : List (Nat × Command Closure) :=
      [(0, .style node none), (0, .style failing none), (0, .submit "b"), (0, .run)]
    (Frame.empty.compile .lowercase true failing "a").1 = Frame.empty ∧
      (∃ level made, DefinitionTrace .lowercase "a" Compiler.levels [Frame.empty] .start node level made ∧
        Frame.empty.Overlaid made after) ∧
      after.definitions.map Prod.fst = ["i", "O"] ∧
      ((session.performAll commands).perform 0 (.compile failing "a")).2 = (session.perform 0 (.compile failing "a")).2 := by
  intro callable node failing after session commands
  have succeeds : (Frame.empty.compile .lowercase true node "a").2.outcome = .ok ⟨"", ""⟩ := by cbv
  have fails : (Frame.empty.compile .lowercase true failing "a").2.outcome = .error (.notCallable "$$") := by cbv
  have defined : after.definitions.map Prod.fst = ["i", "O"] := by cbv
  have kept : (0, Command.drop) ∉ commands := by simp [commands]
  obtain ⟨_, atomic, exactly, stable⟩ := export_is_atomic_and_exact (B := Closure) .lowercase
  obtain ⟨⟨level, made, trace⟩, overlaid⟩ := exactly _ _ _ _ succeeds
  exact ⟨atomic _ _ _ _ fails, ⟨level, made, trace, overlaid level made trace⟩, defined,
    stable session commands 0 kept failing "a"⟩

end NestedCss
