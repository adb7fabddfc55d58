import Mathlib
import NestedCss.Proofs.FingerprintDigits
import NestedCss.Proofs.SelectorRenaming
import NestedCss.Session.Basic
import NestedCss.Style.Template

namespace NestedCss

theorem isPlain_of_isPropertyChar {c : Char} (property : isPropertyChar c) : Selector.isPlain c := by
  by_contra special
  simp only [Selector.isPlain, Blank.isBlank, List.contains_eq_mem, List.mem_cons, List.not_mem_nil, or_false,
    Bool.and_eq_true, Bool.not_eq_true', decide_eq_false_iff_not, Bool.or_eq_false_iff, beq_eq_false_iff_ne,
    not_and_or, not_not, ne_eq] at special
  rcases special with (rfl | rfl | rfl | rfl | rfl | rfl | rfl | rfl) | (((rfl | rfl) | rfl) | rfl) | rfl <;>
    exact absurd property (by decide)

namespace Fingerprint

theorem isPropertyChar_of_digit {c : Char} (own : c.isDigit ∨ c.isLower) : isPropertyChar c := by
  rcases own with figure | small
  · simp [isPropertyChar, Char.isAlphanum, figure]
  · simp [isPropertyChar, Char.isAlphanum, Char.isAlpha, small]

/-- A fingerprint needs no escapes as the name of a class. -/
theorem ofHash_isPropertyChar (hash : UInt32) : ∀ c ∈ (ofHash hash).toList, isPropertyChar c := by
  intro c inside
  rw [ofHash, String.toList_ofList] at inside
  rcases List.mem_append.mp inside with padding | digits
  · rw [List.eq_of_mem_replicate padding]
    decide
  · exact isPropertyChar_of_digit (base36_digit _ c digits)

end Fingerprint

namespace Renaming

/-- The placeholder is renamed to a class. -/
def naming (name : List Char) (valid : ∀ c ∈ name, isPropertyChar c) : Renaming where
  old := ['.', '$', '&']
  new := '.' :: name
  old_ne_nil := List.cons_ne_nil _ _
  new_ne_nil := List.cons_ne_nil _ _
  old_plain := by
    rw [List.forall_mem_cons, List.forall_mem_cons, List.forall_mem_singleton]
    exact ⟨by decide, by decide, by decide⟩
  new_plain := by
    rw [List.forall_mem_cons]
    exact ⟨by decide, fun c inside => isPlain_of_isPropertyChar (valid c inside)⟩

variable {name : List Char} {valid : ∀ c ∈ name, isPropertyChar c} {s t : List Char}

/-- The placeholder is renamed only where it begins. -/
theorem Turns.kept {c : Char} (inner : c ≠ '.') (turns : Turns (naming name valid) (c :: s) t) :
    ∃ rest, t = c :: rest ∧ Turns (naming name valid) s rest := by
  generalize whole : c :: s = chars at turns
  cases turns with
  | nil => cases whole
  | keep _ turns =>
    cases whole
    exact ⟨_, rfl, turns⟩
  | word =>
    cases whole
    exact absurd rfl inner

/-- If the renamed text has no placeholder, all of them were renamed. Different ones cannot overlap,
since the placeholder has three different characters. -/
theorem Turns.nameClass_eq (turns : Turns (naming name valid) s t) (unmarked : ¬ ['.', '$', '&'] <:+: t) :
    nameClass name s = t := by
  induction turns with
  | nil => rfl
  | @keep c s t turns ih =>
    have tail : ¬ ['.', '$', '&'] <:+: t := fun inside => unmarked (inside.trans (List.suffix_cons c t).isInfix)
    have noPlaceholder : ∀ rest, c = '.' → s = '$' :: '&' :: rest → False := by
      rintro rest rfl rfl
      obtain ⟨_, rfl, behind⟩ := turns.kept (by decide)
      obtain ⟨_, rfl, -⟩ := behind.kept (by decide)
      exact unmarked (List.prefix_append ['.', '$', '&'] _).isInfix
    rw [nameClass.eq_3 name c s noPlaceholder, ih tail]
  | @word s t _ ih =>
    have tail : ¬ ['.', '$', '&'] <:+: t := fun inside =>
      unmarked (inside.trans (List.suffix_append ('.' :: name) t).isInfix)
    exact congrArg (fun rest => '.' :: (name ++ rest)) (ih tail)

end Renaming

variable {B : Type} [Expansion B]

/-- A text for a class is the one for the placeholder with the class name written into it, unless it
has itself a placeholder. -/
def IsNamed (name marked named : String) : Prop :=
  ¬ Instance.placeholder.toList <:+: named.toList → String.ofList (nameClass name.toList marked.toList) = named

/-- Compiling for the placeholder and for a class that may be named without escapes are alike: the same notices,
the same error, and texts that differ in the name of the class only. -/
theorem renderNode_named (policy : CapturePolicy) (node : Node B) (scope : Scope B) {name : String}
    (valid : ∀ c ∈ name.toList, isPropertyChar c) :
    Report.Related (IsNamed name) (renderNode policy node Instance.placeholder scope)
      (renderNode policy node ("." ++ name) scope) := by
  have selectors : Renaming.Turns (.naming name.toList valid) Instance.placeholder.toList ("." ++ name).toList := by
    rw [String.toList_append]
    exact .single
  have related := renderNode_related (Renaming.naming name.toList valid).relation policy node selectors
    (Scope.Agrees.refl scope)
  refine related.imp fun marked named turns unmarked => ?_
  rw [Renaming.Turns.nameClass_eq turns unmarked, String.ofList_toList]

/-- A rule set that was given without a class name has been compiled for the placeholder, and its class is named
after what came of it. If the filter passed the name, the text with the name written in was submitted. -/
theorem Session.style_anonymous {i : Instance B} {node : Node B} {s after : Session B}
    {index : Nat} {name : String} (styled : s.style index i node none = (after, .ok name)) :
    ∃ notices marked, i.compile node Instance.placeholder = ⟨notices, .ok marked⟩ ∧ name = fingerprint marked ∧
      ((i.filter.accept name node).1 = true →
        ((s.notify notices).put index (some { i with filter := (i.filter.accept name node).2 })).submit index
          (String.ofList (nameClass name.toList marked.toList)) = (after, .ok ())) := by
  simp only [Session.style, Instance.style] at styled
  generalize i.compile node Instance.placeholder = report at styled ⊢
  obtain ⟨notices, _ | marked⟩ := report
  · cases styled
  simp only [Report.bind_eq, Report.andThen, Report.pure_eq, List.append_nil] at styled
  refine ⟨notices, marked, rfl, ?_⟩
  cases passed : (i.filter.accept (fingerprint marked) node).1 with
  | false =>
    simp only [passed, Bool.false_eq_true, if_false, Prod.mk.injEq, Except.ok.injEq] at styled
    refine ⟨styled.2.symm, fun accepted => ?_⟩
    rw [← styled.2, passed] at accepted
    cases accepted
  | true =>
    simp only [passed, if_true, Prod.mk.injEq] at styled
    obtain ⟨last, result⟩ := styled
    generalize submission : Session.submit _ index _ = submitted at last result
    obtain ⟨reached, _ | _⟩ := submitted
    · cases result
    · cases last
      cases result
      exact ⟨rfl, fun _ => submission⟩

/-- A rule set without a class name is compiled as if its class had been known: what is submitted for
it is the text for the class that it is given, unless that text contains the placeholder. -/
theorem anonymous_class_is_faithful (node : Node B) :
    (∀ (policy : CapturePolicy) (scope : Scope B) (name : String), (∀ c ∈ name.toList, isPropertyChar c) →
      Report.Related (IsNamed name) (renderNode policy node Instance.placeholder scope)
        (renderNode policy node ("." ++ name) scope)) ∧
    ∀ (i : Instance B) (s after : Session B) (index : Nat) (name : String),
      s.style index i node none = (after, .ok name) → (i.filter.accept name node).1 = true →
        ∃ notices text, i.compile node ("." ++ name) = ⟨notices, .ok text⟩ ∧
          (¬ Instance.placeholder.toList <:+: text.toList →
            ((s.notify notices).put index (some { i with filter := (i.filter.accept name node).2 })).submit index text =
              (after, .ok ())) := by
  refine ⟨fun policy scope name valid => renderNode_named policy node scope valid, ?_⟩
  intro i s after index name styled accepted
  obtain ⟨notices, marked, compiled, print, submitted⟩ := Session.style_anonymous styled
  have named : Report.Related (IsNamed name) (i.compile node Instance.placeholder) (i.compile node ("." ++ name)) :=
    renderNode_named i.policy node [i.table] (print ▸ Fingerprint.ofHash_isPropertyChar _)
  rw [compiled] at named
  generalize i.compile node ("." ++ name) = report at named
  cases named with
  | @done _ _ text same =>
    refine ⟨notices, text, rfl, fun unmarked => ?_⟩
    rw [← same unmarked]
    exact submitted accepted

/-- The selector is doubled, so the placeholder is written twice for one rule. -/
theorem anonymous_class_is_faithful_doubled : ∃ (i : Instance Closure) (node : Node Closure) (s after : Session Closure),
    s.style 0 i node none = (after, .ok "_rg0v78") ∧
      i.compile node "._rg0v78" = ⟨[], .ok "._rg0v78._rg0v78\x7bcolor:red;\x7d"⟩ ∧
      ((s.notify []).put 0 (some { i with filter := (i.filter.accept "_rg0v78" node).2 })).submit 0
        "._rg0v78._rg0v78\x7bcolor:red;\x7d" = (after, .ok ()) := by
  obtain ⟨i, plain⟩ : ∃ i : Instance Closure, i = ⟨"body", .lowercase, Frame.empty, .initial⟩ := ⟨_, rfl⟩
  obtain ⟨node, doubled⟩ : ∃ node : Node Closure, node = [("&&", .node [("color", .text "red")])] := ⟨_, rfl⟩
  obtain ⟨s, fresh⟩ : ∃ s : Session Closure,
    s = ⟨[⟨some i, true⟩], ⟨[⟨⟨.initial, [], .queue, [], true, []⟩, 0, true⟩], [[]], []⟩⟩ := ⟨_, rfl⟩
  have styled : (s.style 0 i node none).2 = .ok "_rg0v78" := by
    rw [fresh, plain, doubled]
    cbv
  have accepted : (i.filter.accept "_rg0v78" node).1 = true := by
    rw [plain]
    cbv
  have direct : i.compile node "._rg0v78" = ⟨[], .ok "._rg0v78._rg0v78\x7bcolor:red;\x7d"⟩ := by
    rw [plain, doubled]
    cbv
  obtain ⟨notices, text, compiled, submitted⟩ :=
    (anonymous_class_is_faithful node).2 i s _ 0 "_rg0v78" (Prod.ext rfl styled) accepted
  cases direct.symm.trans compiled
  have ampersand : '&' ∈ Instance.placeholder.toList := by decide
  have noAmpersand : '&' ∉ "._rg0v78._rg0v78\x7bcolor:red;\x7d".toList := by simp
  exact ⟨i, node, s, _, Prod.ext rfl styled, direct, submitted fun inside => noAmpersand (inside.subset ampersand)⟩

end NestedCss
