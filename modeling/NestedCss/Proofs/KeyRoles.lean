import NestedCss.Compilation.Role

namespace NestedCss

variable {B : Type}

/-- A name behind two sigils is always a definition, whatever macros there are. -/
theorem Role.of_sigils (scope : Scope B) {name : String} (named : name ≠ "") (value : Value B) :
    Role.of scope ("$$" ++ name) value = .define name := by
  have chars : ("$$" ++ name).toList = '$' :: '$' :: name.toList := by simp [String.toList_append]
  have behind : name.toList ≠ [] := by simpa using named
  unfold Role.of
  rw [chars]
  split
  · simp_all
  · rename_i rest _ same
    have chosen : name.toList = rest := by simpa using same
    rw [← chosen, String.ofList_toList]
  · simp_all

/-- Without two sigils a key is the name of a macro first, and only where there is none do its spelling and its
value count. -/
theorem Role.of_plain {key : String} (plain : ¬ ['$', '$'] <+: key.toList) (scope : Scope B) (value : Value B) :
    Role.of scope key value = match scope.find? key with
      | some entry => .invoke entry
      | none =>
        if value.isPrimitive && isPropertyKey key then .property
        else if key.toList.head? = some '@' then .atRule
        else .selector := by
  unfold Role.of
  split
  · rename_i chars
    exact absurd (by simp [chars]) plain
  · rename_i chars
    exact absurd (by simp [chars]) plain
  · rfl

/-- Declarations are made by keys that can be the name of a property, with values that are shown as text. -/
theorem Role.of_eq_property {scope : Scope B} {key : String} {value : Value B}
    (role : Role.of scope key value = .property) : value.isPrimitive = true ∧ isPropertyKey key = true := by
  unfold Role.of at role
  split at role
  · cases role
  · cases role
  · split at role
    · cases role
    · split at role
      · rename_i declares
        exact Bool.and_eq_true_iff.mp declares
      · split at role <;> cases role

theorem Role.of_eq_atRule {scope : Scope B} {key : String} {value : Value B}
    (role : Role.of scope key value = .atRule) : key.toList.head? = some '@' := by
  unfold Role.of at role
  split at role
  · cases role
  · cases role
  · split at role
    · cases role
    · split at role
      · cases role
      · split at role
        · assumption
        · cases role

/-- A name in scope is invoked, unless its spelling makes the key a definition or a token rule. -/
theorem Role.of_visible {scope : Scope B} {key : String} {entry : Macro B}
    (plain : ¬ ['$', '$'] <+: key.toList) (visible : scope.find? key = some entry) (value : Value B) :
    Role.of scope key value = .invoke entry := by
  rw [of_plain plain, visible]

/-- A block whose key names no macro is opened. -/
theorem Role.of_block {scope : Scope B} {key : String} (plain : ¬ ['$', '$'] <+: key.toList)
    (unknown : scope.find? key = none) (block : Node B) :
    Role.of scope key (.node block) = if key.toList.head? = some '@' then .atRule else .selector := by
  rw [of_plain plain, unknown]
  rfl

end NestedCss
