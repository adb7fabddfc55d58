import NestedCss.Compilation.Level

namespace NestedCss

theorem Report.outcome_bind_of_ok {α β : Type} {report : Report α} {a : α} (reached : report.outcome = .ok a)
    (next : α → Report β) : (report >>= next).outcome = (next a).outcome := by
  simp only [bind_eq, andThen, reached]

theorem Report.outcome_bind_ok {α β : Type} {report : Report α} {next : α → Report β} {b : β} :
    (report >>= next).outcome = .ok b ↔ ∃ a, report.outcome = .ok a ∧ (next a).outcome = .ok b := by
  obtain ⟨notices, outcome⟩ := report
  cases outcome <;> simp [Report.andThen]

theorem Report.outcome_bind_error {α β : Type} {report : Report α} {next : α → Report β} {e : CompileError} :
    (report >>= next).outcome = .error e ↔
      report.outcome = .error e ∨ ∃ a, report.outcome = .ok a ∧ (next a).outcome = .error e := by
  obtain ⟨notices, outcome⟩ := report
  cases outcome <;> simp [Report.andThen]

theorem Report.outcome_map_ok {α β : Type} {report : Report α} {f : α → β} {b : β} :
    (f <$> report).outcome = .ok b ↔ ∃ a, report.outcome = .ok a ∧ f a = b := by
  simp only [map_eq_pure_bind, outcome_bind_ok, pure_eq, Except.ok.injEq]

variable {B : Type}

theorem enter_ok {below : Option (Compiler B)} {key : String} {compiler : Compiler B}
    (entered : (enter below key).outcome = .ok compiler) : below = some compiler := by
  cases below with
  | none => cases entered
  | some => cases entered; rfl

namespace Level

theorem emit_nothing (level : Level B) : level.emit "" = level := by
  simp [emit]

/-- An at-rule adds text behind the rule of its level, and leaves the frame as it is. -/
theorem atRule_ok {level next : Level B} {below : Option (Compiler B)} {selector key : String}
    {enclosing : Scope B} {value : Value B}
    (taken : (level.atRule below selector enclosing key value).outcome = .ok next) :
    ∃ text, next = level.emit text := by
  unfold atRule at taken
  split at taken
  · obtain ⟨compiler, _, compiled⟩ := Report.outcome_bind_ok.mp taken
    obtain ⟨inner, _, finished⟩ := Report.outcome_bind_ok.mp compiled
    dsimp only at finished
    split at finished <;> cases finished
    · exact ⟨"", (emit_nothing level).symm⟩
    · exact ⟨_, rfl⟩
  · split at taken
    · cases taken
      exact ⟨_, rfl⟩
    · cases taken
      exact ⟨"", (emit_nothing level).symm⟩

theorem nested_ok {level next : Level B} {below : Option (Compiler B)} {selector key : String}
    {enclosing : Scope B} {value : Value B}
    (taken : (level.nested below selector enclosing key value).outcome = .ok next) :
    ∃ text, next = level.emit text := by
  unfold nested at taken
  split at taken
  · obtain ⟨compiler, _, compiled⟩ := Report.outcome_bind_ok.mp taken
    obtain ⟨inner, _, finished⟩ := Report.outcome_bind_ok.mp compiled
    cases finished
    exact ⟨_, rfl⟩
  · cases taken
    exact ⟨"", (emit_nothing level).symm⟩

end Level

variable [Expansion B]

/-- The compiler of the level below one that has the given number of levels below it. -/
def Compiler.below (policy : CapturePolicy) : Nat → Option (Compiler B)
  | 0 => none
  | levels + 1 => some (Compiler.above policy levels)

theorem Compiler.below_eq_some {policy : CapturePolicy} {levels : Nat} {compiler : Compiler B}
    (deeper : Compiler.below policy levels = some compiler) :
    ∃ lower, levels = lower + 1 ∧ compiler = Compiler.above policy lower := by
  cases levels with
  | zero => cases deeper
  | succ lower =>
    cases deeper
    exact ⟨lower, rfl, rfl⟩

/-- Compiling a node is taking its keys from an empty level, whatever number of levels lies below. -/
theorem Compiler.above_eq (policy : CapturePolicy) (levels : Nat) (node : Node B) (selector : String)
    (scope : Scope B) :
    Compiler.above policy levels node selector scope =
      Level.steps policy (Compiler.below policy levels) selector scope .start node := by
  cases levels <;> rfl

namespace Level

/-- All that a key can do to a level if it is taken without an error. -/
inductive Takes (policy : CapturePolicy) (below : Option (Compiler B)) (selector : String)
    (enclosing : Scope B) (level : Level B) (key : String) : Value B → Level B → Prop
  | rule {rule : TokenRule} : Role.of (level.frame :: enclosing) key (.resolver rule : Value B) = .rule →
      Takes policy below selector enclosing level key (.resolver rule) (level.putRule enclosing rule)
  | define {value : Value B} {name : String} {entry : Macro B} :
      Role.of (level.frame :: enclosing) key value = .define name →
      (definition policy name (level.frame :: enclosing) value).outcome = .ok entry →
      Takes policy below selector enclosing level key value (level.define name entry)
  | invoke {value : Value B} {body : B} {captured : Option (Scope B)} {compiler : Compiler B}
      {expansion : Level B} :
      Role.of (level.frame :: enclosing) key value = .invoke ⟨some body, captured⟩ → below = some compiler →
      (compiler (Expansion.expand body value) selector (captured.getD (level.frame :: enclosing))).outcome =
        .ok expansion →
      Takes policy below selector enclosing level key value (level.absorb expansion)
  | declare {value : Value B} : Role.of (level.frame :: enclosing) key value = .property →
      Takes policy below selector enclosing level key value
        (level.declare (declaration (level.frame :: enclosing) key value))
  | atRule {value : Value B} {text : String} : Role.of (level.frame :: enclosing) key value = .atRule →
      (level.atRule below selector enclosing key value).outcome = .ok (level.emit text) →
      Takes policy below selector enclosing level key value (level.emit text)
  | nested {value : Value B} {text : String} : Role.of (level.frame :: enclosing) key value = .selector →
      (level.nested below selector enclosing key value).outcome = .ok (level.emit text) →
      Takes policy below selector enclosing level key value (level.emit text)

variable {policy : CapturePolicy} {below : Option (Compiler B)} {selector : String} {enclosing : Scope B}
  {level next : Level B}

/-- A macro that is invoked has a body, and what the body expands to is compiled one level below, in the scope
that the macro has captured or else in that of the key. The level takes all of it over. -/
theorem invoke_ok {key : String} {value : Value B} {entry : Macro B}
    (taken : (level.invoke below selector enclosing key value entry).outcome = .ok next) :
    ∃ compiler body expansion, below = some compiler ∧ entry.body = some body ∧
      (compiler (Expansion.expand body value) selector (entry.captured.getD (level.frame :: enclosing))).outcome =
        .ok expansion ∧ next = level.absorb expansion := by
  obtain ⟨compiler, entered, rest⟩ := Report.outcome_bind_ok.mp taken
  split at rest
  · cases rest
  · rename_i body bodyEq
    obtain ⟨expansion, compiled, finished⟩ := Report.outcome_bind_ok.mp rest
    exact ⟨compiler, body, expansion, enter_ok entered, bodyEq, compiled, (Except.ok.inj finished).symm⟩

/-- A key that is taken without an error does one of the things that `Takes` lists. -/
theorem step_ok {key : String} {value : Value B}
    (taken : (level.step policy below selector enclosing (key, value)).outcome = .ok next) :
    Takes policy below selector enclosing level key value next := by
  unfold step at taken
  cases role : Role.of (level.frame :: enclosing) key value with
  | rule =>
    cases value with
    | resolver rule =>
      simp only [role] at taken
      cases taken
      exact .rule role
    | _ =>
      simp only [role] at taken
      cases taken
  | define name =>
    simp only [role] at taken
    obtain ⟨entry, defined, finished⟩ := Report.outcome_bind_ok.mp taken
    cases finished
    exact .define role defined
  | invoke entry =>
    simp only [role] at taken
    obtain ⟨compiler, body, expansion, entered, bodyEq, compiled, rfl⟩ := invoke_ok taken
    obtain ⟨_, captured⟩ := entry
    subst bodyEq
    exact .invoke role entered compiled
  | property =>
    simp only [role] at taken
    cases taken
    exact .declare role
  | atRule =>
    simp only [role] at taken
    obtain ⟨text, rfl⟩ := atRule_ok taken
    exact .atRule role taken
  | selector =>
    simp only [role] at taken
    obtain ⟨text, rfl⟩ := nested_ok taken
    exact .nested role taken

theorem steps_cons (entry : String × Value B) (rest : Node B) :
    level.steps policy below selector enclosing (entry :: rest) =
      level.step policy below selector enclosing entry >>= fun next =>
        next.steps policy below selector enclosing rest :=
  List.foldlM_cons

/-- Two nodes one behind the other are taken one after the other, the second from the level that the first has
come to. -/
theorem steps_append (first second : Node B) :
    level.steps policy below selector enclosing (first ++ second) =
      level.steps policy below selector enclosing first >>= fun next =>
        next.steps policy below selector enclosing second :=
  List.foldlM_append

/-- The keys of a node are taken without an error exactly if the first is, and the others are from the level that
it has come to. -/
theorem steps_cons_ok {entry : String × Value B} {rest : Node B} {last : Level B} :
    (level.steps policy below selector enclosing (entry :: rest)).outcome = .ok last ↔
      ∃ next, (level.step policy below selector enclosing entry).outcome = .ok next ∧
        (next.steps policy below selector enclosing rest).outcome = .ok last := by
  rw [steps_cons]
  exact Report.outcome_bind_ok

/-- What holds of every node that compiles, if keys hand it on. The invocation of a macro hands on what
holds of its expansion too. -/
theorem steps_induction {motive : Nat → Scope B → Level B → Node B → Level B → Prop}
    (done : ∀ levels enclosing level, motive levels enclosing level [] level)
    (own : ∀ {levels : Nat} {enclosing : Scope B} {level : Level B} {key : String} {value : Value B} {next : Level B}
      {rest : Node B} {last : Level B}, (∀ entry, Role.of (level.frame :: enclosing) key value ≠ .invoke entry) →
        (level.step policy (Compiler.below policy levels) selector enclosing (key, value)).outcome = .ok next →
        motive levels enclosing next rest last → motive levels enclosing level ((key, value) :: rest) last)
    (invoke : ∀ {levels : Nat} {enclosing : Scope B} {level : Level B} {key : String} {value : Value B} {body : B}
      {captured : Option (Scope B)} {expansion : Level B} {rest : Node B} {last : Level B},
        Role.of (level.frame :: enclosing) key value = .invoke ⟨some body, captured⟩ →
        motive levels (captured.getD (level.frame :: enclosing)) .start (Expansion.expand body value) expansion →
        motive (levels + 1) enclosing (level.absorb expansion) rest last →
        motive (levels + 1) enclosing level ((key, value) :: rest) last)
    {levels : Nat} {enclosing : Scope B} {level last : Level B} {node : Node B}
    (taken : (level.steps policy (Compiler.below policy levels) selector enclosing node).outcome = .ok last) :
    motive levels enclosing level node last := by
  -- The outer induction is on the levels below, for the expansions, and the inner one on the keys.
  induction levels using Nat.strongRecOn generalizing enclosing level last node with
  | ind levels expand =>
    induction node generalizing level with
    | nil =>
      cases taken
      exact done _ _ _
    | cons entry rest ih =>
      obtain ⟨key, value⟩ := entry
      obtain ⟨next, stepped, later⟩ := steps_cons_ok.mp taken
      have handedOn := ih later
      cases step_ok stepped with
      | @invoke _ body captured compiler expansion role entered compiled =>
        cases levels with
        | zero => cases entered
        | succ levels =>
          cases entered
          rw [Compiler.above_eq] at compiled
          exact invoke role (expand levels (Nat.lt_succ_self levels) compiled) handedOn
      | rule role => exact own (by simp [role]) stepped handedOn
      | define role => exact own (by simp [role]) stepped handedOn
      | declare role => exact own (by simp [role]) stepped handedOn
      | atRule role => exact own (by simp [role]) stepped handedOn
      | nested role => exact own (by simp [role]) stepped handedOn

end Level

namespace Frame
variable {table : Frame B} {policy : CapturePolicy} {exported : Bool} {node : Node B} {selector : String}

/-- Whether it is exported or not, a compilation against a table yields the text of the compilation in the scope
of this table. -/
theorem compile_ok {fragment : Fragment} :
    (table.compile policy exported node selector).2.outcome = .ok fragment ↔
      ∃ level, (NestedCss.compile policy node selector [table]).outcome = .ok level ∧ level.fragment = fragment := by
  simp only [compile, Report.outcome_bind_ok, Report.pure_eq, Except.ok.injEq]

theorem compile_error {e : CompileError} :
    (table.compile policy exported node selector).2.outcome = .error e ↔
      (NestedCss.compile policy node selector [table]).outcome = .error e := by
  simp [compile, Report.outcome_bind_error, -Report.bind_eq]

/-- A table takes over what a compilation that succeeds defines at its outermost level. -/
theorem compile_exported {level : Level B}
    (taken : (NestedCss.compile policy node selector [table]).outcome = .ok level) :
    (table.compile policy true node selector).1 = table.merge level.frame := by
  simp only [compile, taken, if_true]

/-- A compilation that fails leaves the table as it was, even if it is to be exported. -/
theorem compile_failed {e : CompileError}
    (failed : (NestedCss.compile policy node selector [table]).outcome = .error e) :
    (table.compile policy exported node selector).1 = table := by
  simp only [compile, failed]

/-- A compilation that is not exported leaves the table as it was. -/
theorem compile_unexported : (table.compile policy false node selector).1 = table := by
  simp only [compile]
  split <;> rfl

end Frame

end NestedCss
