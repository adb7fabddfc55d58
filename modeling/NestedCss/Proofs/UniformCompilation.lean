import NestedCss.Compilation.Level
import NestedCss.Proofs.ReportRelation
import NestedCss.Proofs.ScopeAgreement

namespace NestedCss

/-- A relation on texts that a compilation keeps where it builds its output: texts are put one
behind the other, tested for being empty, and nested as selectors. -/
structure TextRelation where
  holds : String → String → Prop
  refl (text : String) : holds text text
  append {a b c d : String} : holds a b → holds c d → holds (a ++ c) (b ++ d)
  isEmpty_eq {a b : String} : holds a b → a.isEmpty = b.isEmpty
  nest {a b : String} (pattern : String) : holds a b → holds (Selector.nest a pattern) (Selector.nest b pattern)

/-- Equal texts. -/
def TextRelation.equal : TextRelation where
  holds := Eq
  refl _ := rfl
  append first second := by rw [first, second]
  isEmpty_eq same := by rw [same]
  nest _ same := by rw [same]

variable {B : Type}

/-- Levels that cannot be told apart, but for the text of their nested rules. -/
structure Level.Related (R : TextRelation) (one other : Level B) : Prop where
  frame : one.frame.Agrees other.frame
  body : one.fragment.body = other.fragment.body
  outside : R.holds one.fragment.outside other.fragment.outside

/-- A compiler that makes related levels from related selectors in agreeing scopes. -/
def Compiler.Uniform (R : TextRelation) (compiler : Compiler B) : Prop :=
  ∀ (node : Node B) {selector selectorOther : String} {scope scopeOther : Scope B},
    R.holds selector selectorOther → scope.Agrees scopeOther →
      Report.Related (Level.Related R) (compiler node selector scope) (compiler node selectorOther scopeOther)

section Texts
variable {R : TextRelation}

/-- Related levels make related rules, and there is no rule on one side only. -/
theorem Fragment.render_related {one other : Level B} {selector selectorOther : String}
    (levels : Level.Related R one other) (selectors : R.holds selector selectorOther) :
    R.holds (one.fragment.render selector) (other.fragment.render selectorOther) := by
  simp only [Fragment.render, levels.body]
  split
  · exact levels.outside
  · exact R.append (R.append selectors (R.refl _)) levels.outside

theorem Fragment.braces_related {text textOther : String} (texts : R.holds text textOther) :
    R.holds (Fragment.braces text) (Fragment.braces textOther) :=
  R.append (R.append (R.refl _) texts) (R.refl _)

theorem Level.Related.start : Level.Related R (Level.start : Level B) Level.start :=
  ⟨.refl _, rfl, R.refl _⟩

theorem Level.Related.declare {one other : Level B} (levels : Level.Related R one other) (text : String) :
    Level.Related R (one.declare text) (other.declare text) :=
  ⟨levels.frame, congrArg (· ++ text) levels.body, levels.outside⟩

theorem Level.Related.emit {one other : Level B} {text textOther : String}
    (levels : Level.Related R one other) (texts : R.holds text textOther) :
    Level.Related R (one.emit text) (other.emit textOther) :=
  ⟨levels.frame, levels.body, R.append levels.outside texts⟩

/-- Levels that take over related expansions stay related. -/
theorem Level.Related.absorb {one other expansion expansionOther : Level B}
    (levels : Level.Related R one other) (expansions : Level.Related R expansion expansionOther) :
    Level.Related R (one.absorb expansion) (other.absorb expansionOther) where
  frame := levels.frame.merge expansions.frame
  body := by simp only [Level.absorb, Fragment.join, levels.body, expansions.body]
  outside := R.append levels.outside expansions.outside

end Texts

/-- Agreeing scopes give a key the same role, up to the macro that it invokes. -/
theorem Role.of_agrees {scope scopeOther : Scope B} (scopes : scope.Agrees scopeOther) (key : String)
    (value : Value B) :
    (∃ entry entryOther, Role.of scope key value = .invoke entry ∧
      Role.of scopeOther key value = .invoke entryOther ∧ Macro.Agrees entry entryOther) ∨
    (Role.of scope key value = Role.of scopeOther key value ∧
      ∀ entry, Role.of scope key value ≠ .invoke entry) := by
  have found := scopes.macros key
  unfold Role.of
  split
  · exact .inr ⟨rfl, by simp⟩
  · exact .inr ⟨rfl, by simp⟩
  · generalize scope.find? key = one, scopeOther.find? key = other at found
    cases found with
    | none =>
      refine .inr ⟨rfl, fun entry => ?_⟩
      dsimp only
      split
      · simp
      · split <;> simp
    | @some entry entryOther same => exact .inl ⟨entry, entryOther, rfl, rfl, same⟩

/-- A definition captures what can be seen of the scope, so that agreeing scopes lead to macros that expand
alike. -/
theorem definition_agrees (policy : CapturePolicy) (name : String) {scope scopeOther : Scope B}
    (scopes : scope.Agrees scopeOther) (value : Value B) :
    Report.Related Macro.Agrees (definition policy name scope value) (definition policy name scopeOther value) := by
  unfold definition
  split
  · rename_i mode body
    cases mode.captures policy name with
    | true => exact .pure (.of_scopes _ scopes.flatten)
    | false => exact .pure (.shared _)
  · exact .bind (Report.Related.refl (fun _ => rfl) _) fun _ _ _ => .pure (.of_scopes _ scopes.flatten)

theorem enter_related {R : TextRelation} {below : Option (Compiler B)}
    (uniform : ∀ compiler ∈ below, Compiler.Uniform R compiler) (key : String) :
    Report.Related (fun compiler compilerOther => compiler = compilerOther ∧ Compiler.Uniform R compiler)
      (enter below key) (enter below key) := by
  cases below with
  | none => exact .fail _
  | some compiler => exact .pure ⟨rfl, uniform compiler rfl⟩

namespace Level
variable {R : TextRelation} {below : Option (Compiler B)}
  {one other : Level B} {selector selectorOther : String} {enclosing enclosingOther : Scope B}

theorem atRule_related (uniform : ∀ compiler ∈ below, Compiler.Uniform R compiler)
    (levels : Level.Related R one other) (selectors : R.holds selector selectorOther)
    (scopes : enclosing.Agrees enclosingOther) (key : String) (value : Value B) :
    Report.Related (Level.Related R) (one.atRule below selector enclosing key value)
      (other.atRule below selectorOther enclosingOther key value) := by
  unfold Level.atRule
  split
  · rename_i block
    refine .bind (enter_related uniform key) ?_
    rintro compiler _ ⟨rfl, uniformHere⟩
    refine .bind (uniformHere block selectors (.cons levels.frame scopes)) fun inner innerOther inners => ?_
    have texts := Fragment.render_related inners selectors
    simp only [R.isEmpty_eq texts]
    split
    · exact .pure levels
    · exact .pure (levels.emit (R.append (R.refl _) (Fragment.braces_related texts)))
  · split
    · exact .pure (levels.emit (R.refl _))
    · exact .bind (Report.Related.refl (fun _ => rfl) _) fun _ _ _ => .pure levels

theorem nested_related (uniform : ∀ compiler ∈ below, Compiler.Uniform R compiler)
    (levels : Level.Related R one other) (selectors : R.holds selector selectorOther)
    (scopes : enclosing.Agrees enclosingOther) (key : String) (value : Value B) :
    Report.Related (Level.Related R) (one.nested below selector enclosing key value)
      (other.nested below selectorOther enclosingOther key value) := by
  unfold Level.nested
  split
  · rename_i block
    refine .bind (enter_related uniform key) ?_
    rintro compiler _ ⟨rfl, uniformHere⟩
    have composed := R.nest key selectors
    refine .bind (uniformHere block composed (.cons levels.frame scopes)) fun _ _ inners => ?_
    exact .pure (levels.emit (Fragment.render_related inners composed))
  · exact .bind (Report.Related.refl (fun _ => rfl) _) fun _ _ _ => .pure levels

variable [Expansion B]

/-- Macros that agree have one body and are expanded in agreeing scopes. -/
theorem invoke_related (uniform : ∀ compiler ∈ below, Compiler.Uniform R compiler)
    (levels : Level.Related R one other) (selectors : R.holds selector selectorOther)
    (scopes : enclosing.Agrees enclosingOther) (key : String) (value : Value B)
    {entry entryOther : Macro B} (entries : Macro.Agrees entry entryOther) :
    Report.Related (Level.Related R) (one.invoke below selector enclosing key value entry)
      (other.invoke below selectorOther enclosingOther key value entryOther) := by
  refine .bind (enter_related uniform key) ?_
  rintro compiler _ ⟨rfl, uniformHere⟩
  have bodies := entries.body_eq
  have captured := entries.scopes
  obtain ⟨body, capturedOne⟩ := entry
  obtain ⟨_, capturedOther⟩ := entryOther
  subst bodies
  cases body with
  | none => exact .fail _
  | some body =>
    refine .bind (uniformHere _ selectors ?_) fun _ _ expansions => .pure (levels.absorb expansions)
    cases captured with
    | none => exact .cons levels.frame scopes
    | some same => exact same

/-- One key keeps levels related. -/
theorem step_related (policy : CapturePolicy) (uniform : ∀ compiler ∈ below, Compiler.Uniform R compiler)
    (levels : Level.Related R one other) (selectors : R.holds selector selectorOther)
    (scopes : enclosing.Agrees enclosingOther) (entry : String × Value B) :
    Report.Related (Level.Related R) (one.step policy below selector enclosing entry)
      (other.step policy below selectorOther enclosingOther entry) := by
  obtain ⟨key, value⟩ := entry
  have seen : Scope.Agrees (one.frame :: enclosing) (other.frame :: enclosingOther) := .cons levels.frame scopes
  unfold Level.step
  rcases Role.of_agrees seen key value with ⟨entry, entryOther, role, roleOther, entries⟩ | ⟨same, noInvoke⟩
  · simp only [role, roleOther]
    exact invoke_related uniform levels selectors scopes key value entries
  · simp only [← same]
    cases role : Role.of (one.frame :: enclosing) key value with
    | rule =>
      cases value with
      | resolver rule => exact .pure ⟨levels.frame.putRule scopes rule, levels.body, levels.outside⟩
      | _ => exact .fail _
    | define name =>
      refine .bind (definition_agrees policy name seen value) fun a b entries => ?_
      exact .pure ⟨levels.frame.define name entries, levels.body, levels.outside⟩
    | invoke entry => exact absurd role (noInvoke entry)
    | property =>
      have texts : declaration (one.frame :: enclosing) key value = declaration (other.frame :: enclosingOther) key value := by
        simp only [declaration, seen.chain]
      exact texts ▸ .pure (levels.declare _)
    | atRule => exact atRule_related uniform levels selectors scopes key value
    | selector => exact nested_related uniform levels selectors scopes key value

/-- The keys of a node keep two levels related. -/
theorem steps_related (policy : CapturePolicy) (uniform : ∀ compiler ∈ below, Compiler.Uniform R compiler)
    (levels : Level.Related R one other) (selectors : R.holds selector selectorOther)
    (scopes : enclosing.Agrees enclosingOther) (node : Node B) :
    Report.Related (Level.Related R) (one.steps policy below selector enclosing node)
      (other.steps policy below selectorOther enclosingOther node) :=
  .foldlM (fun _ _ entry same => step_related policy uniform same selectors scopes entry) node levels

end Level

/-- However deep a compiler goes, it is uniform. The induction is on the number of levels below; each
level is entered through the compiler of the next one. -/
theorem Compiler.above_uniform [Expansion B] (R : TextRelation) (policy : CapturePolicy) (levels : Nat) :
    Compiler.Uniform R (Compiler.above policy levels : Compiler B) := by
  induction levels with
  | zero =>
    intro node _ _ _ _ selectors scopes
    exact Level.steps_related policy (by simp) .start selectors scopes node
  | succ levels ih =>
    intro node _ _ _ _ selectors scopes
    exact Level.steps_related policy (by simpa using ih) .start selectors scopes node

/-- Related selectors and agreeing scopes lead to related texts, with the same notices and errors. -/
theorem renderNode_related [Expansion B] (R : TextRelation) (policy : CapturePolicy) (node : Node B)
    {selector selectorOther : String} {scope scopeOther : Scope B} (selectors : R.holds selector selectorOther)
    (scopes : scope.Agrees scopeOther) :
    Report.Related R.holds (renderNode policy node selector scope) (renderNode policy node selectorOther scopeOther) :=
  .bind (Compiler.above_uniform R policy Compiler.levels node selectors scopes) fun _ _ levels =>
    .pure (Fragment.render_related levels selectors)

end NestedCss
