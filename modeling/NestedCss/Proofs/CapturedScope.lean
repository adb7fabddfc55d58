import Mathlib
import NestedCss.Proofs.KeyRoles
import NestedCss.Proofs.UniformCompilation
import NestedCss.Style.Template

namespace NestedCss

variable {B : Type}

namespace Level
variable [Expansion B]

/-- A macro that captures is defined with all that is visible at its key. -/
theorem step_define_captured {policy : CapturePolicy} {below : Option (Compiler B)} {selector : String}
    {around : Scope B} {before after : Level B} {name : String} {mode : CaptureMode} {body : B}
    (captures : mode.captures policy name = true)
    (defined : (before.step policy below selector around ("$$" ++ name, .callable mode body)).outcome = .ok after) :
    after = before.define name ⟨some body, some (Scope.flatten (before.frame :: around))⟩ := by
  by_cases named : name = ""
  · subst named
    have failed : (before.step policy below selector around ("$$" ++ "", .callable mode body)).outcome =
        .error (.notCallable "$$") := rfl
    rw [failed] at defined
    cases defined
  · simp only [step, Role.of_sigils _ named, definition, captures, if_true, Report.pure_eq, Report.bind_eq,
      Report.andThen] at defined
    exact (Except.ok.inj defined).symm

/-- The visible definition of a name is invoked with its own scope, and its expansion is appended. -/
theorem step_captured {policy : CapturePolicy} {compiler : Compiler B} {selector : String}
    {enclosing scope : Scope B} {level : Level B} {name : String} {body : B}
    (plain : ¬ ['$', '$'] <+: name.toList)
    (visible : Scope.find? (level.frame :: enclosing) name = some ⟨some body, some scope⟩) (value : Value B) :
    level.step policy (some compiler) selector enclosing (name, value) =
      (do return level.absorb (← compiler (Expansion.expand body value) selector scope)) := by
  simp only [step, Role.of_visible plain visible, invoke, enter, Option.getD_some]
  rfl

end Level

/-- A macro that captures is compiled for its argument in the scope of its definition, whatever was
defined, replaced or chained since: where its definition is the visible one, the invocation adds the
text of its expansion in any scope `seen` that shows the macros and the chain that were visible before
the definition, and stops with the same error. Its own definition is not among these macros.
A name that itself starts with `$$` can be defined, but no key invokes it. -/
theorem captured_expansion_is_fixed [Expansion B] {policy : CapturePolicy} {definedBelow : Option (Compiler B)}
    {definedFor name : String} {around : Scope B} {before after : Level B} {mode : CaptureMode} {body : B}
    (captures : mode.captures policy name = true)
    (defined : (before.step policy definedBelow definedFor around ("$$" ++ name, .callable mode body)).outcome = .ok after)
    {seen : Scope B} (sameChain : seen.chain = Scope.chain (before.frame :: around))
    (sameMacros : ∀ other, seen.find? other = Scope.find? (before.frame :: around) other)
    {level : Level B} {selector : String} {enclosing : Scope B} (plain : ¬ ['$', '$'] <+: name.toList)
    (visible : Scope.find? (level.frame :: enclosing) name = after.frame.find? name) (value : Value B) (levels : Nat) :
    Level.fragment <$> level.step policy (some (Compiler.above policy levels)) selector enclosing (name, value) =
        (fun expansion => level.fragment.join expansion.fragment) <$>
          Compiler.above policy levels (Expansion.expand body value) selector seen ∧
      seen.find? name ≠ after.frame.find? name := by
  rw [Level.step_define_captured captures defined, Level.define, Frame.find?_define, if_pos rfl] at visible ⊢
  constructor
  · have agree : Scope.Agrees (Scope.flatten (before.frame :: around)) seen :=
      .of_view (by rw [Scope.chain_flatten, sameChain]) fun other => by rw [Scope.find?_flatten, sameMacros]
    have related := Compiler.above_uniform .equal policy levels (Expansion.expand body value)
      (TextRelation.equal.refl selector) agree
    rw [Level.step_captured plain visible, map_bind]
    simp only [map_pure]
    rw [← map_eq_pure_bind]
    refine related.map_eq fun a b same => ?_
    simp only [Level.absorb, Fragment.join, same.body, (show a.fragment.outside = b.fragment.outside from same.outside)]
  · intro itself
    have smaller := Scope.sizeOf_find? ((Scope.find?_flatten _ _).trans ((sameMacros name).symm.trans itself))
    simp only [Definition.mk.sizeOf_spec, Option.some.sizeOf_spec] at smaller
    omega

/-- The macro `paint` declares a color. When it is invoked, `color` has become the name of a macro that
cannot be called; the live scope would refuse the declaration. -/
theorem captured_expansion_is_fixed_paint :
    let body : Closure := .mk (.node [(.text "color", .text "red")]) []
    let painted := Level.start.define "paint" ⟨some body, some (Scope.flatten [Frame.empty])⟩
    let later := painted.define "color" ⟨none, none⟩
    Level.fragment <$> later.step .lowercase (some (Compiler.above .lowercase 0)) ".x" [] ("paint", .text "") =
      ⟨[], .ok ⟨"color:red;", ""⟩⟩ := by
  intro body painted later
  have fixed := @captured_expansion_is_fixed Closure _ .lowercase none ".x" "paint" [] .start painted .byName body
    rfl rfl [Frame.empty] rfl (fun _ => rfl) later ".x" [] (by decide) rfl (.text "") 0
  exact fixed.1.trans (by cbv)

end NestedCss
