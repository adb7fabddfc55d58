import Mathlib
import NestedCss.Compilation.Role
import NestedCss.Property.Name

namespace NestedCss

/-- A small letter, a digit, an underscore or a hyphen. -/
def isNameChar (c : Char) : Bool :=
  c.isLower || c.isDigit || c == '_' || c == '-'

theorem isNameChar_of_small {c : Char} (property : isPropertyChar c) (small : c.isUpper = false) : isNameChar c := by
  simpa [isPropertyChar, isNameChar, Char.isAlphanum, Char.isAlpha, small] using property

theorem isNameChar_toLower {c : Char} (capital : c.isUpper) : isNameChar c.toLower := by
  simp [isNameChar, Char.isAlpha, capital]

theorem toList_sigil (name : String) : ("$" ++ name).toList = '$' :: name.toList := String.toList_append

namespace PropertyName

theorem ofKey_sigil (name : String) : ofKey ("$" ++ name) = "--" ++ hyphenated name := by
  simp only [ofKey, toList_sigil, hyphenated]

/-- What holds of the hyphen, of the small letters that stand for capitals, and of all other characters of a name
holds throughout its hyphenated form. -/
theorem forall_mem_hyphenate {allowed : Char → Prop} {name : List Char} (hyphen : allowed '-')
    (lowered : ∀ c ∈ name, c.isUpper → allowed c.toLower) (kept : ∀ c ∈ name, c.isUpper = false → allowed c) :
    ∀ c ∈ hyphenate name, allowed c := by
  induction name with
  | nil => simp
  | cons c rest ih =>
    rw [List.forall_mem_cons] at lowered kept
    rw [hyphenate]
    split
    · rename_i capital
      rw [List.forall_mem_cons, List.forall_mem_cons]
      exact ⟨hyphen, lowered.1 capital, ih lowered.2 kept.2⟩
    · rename_i small
      rw [List.forall_mem_cons]
      exact ⟨kept.1 (Bool.eq_false_iff.mpr small), ih lowered.2 kept.2⟩

/-- A name made of property characters is converted to small letters, figures, underscores and hyphens. -/
theorem hyphenate_chars {name : List Char} (chars : ∀ c ∈ name, isPropertyChar c) :
    ∀ c ∈ hyphenate name, isNameChar c :=
  forall_mem_hyphenate (by decide) (fun _ _ => isNameChar_toLower)
    fun c inside => isNameChar_of_small (chars c inside)

theorem hyphenate_eq_nil_iff {name : List Char} : hyphenate name = [] ↔ name = [] := by
  cases name with
  | nil => simp
  | cons c rest =>
    rw [hyphenate]
    split <;> simp

/-- A key that can declare a property declares one with a name. -/
theorem ofKey_ne_empty {key : String} (property : isPropertyKey key) : ofKey key ≠ "" := by
  simp only [isPropertyKey, Bool.and_eq_true, Bool.not_eq_true', List.isEmpty_eq_false_iff] at property
  unfold ofKey
  split
  · simp [String.append_eq_empty_iff]
  · simp only at property
    rw [ne_eq, String.ofList_eq_empty_iff, hyphenate_eq_nil_iff]
    exact property.1

/-- Nothing in the name of a declared property needs an escape. -/
theorem ofKey_chars {key : String} (property : isPropertyKey key) : ∀ c ∈ (ofKey key).toList, isNameChar c := by
  simp only [isPropertyKey, Bool.and_eq_true, List.all_eq_true] at property
  unfold ofKey
  split
  · rename_i name sigil
    simp only [sigil] at property
    rw [String.toList_append, List.forall_mem_append]
    refine ⟨by simp [isNameChar], ?_⟩
    rw [String.toList_ofList]
    exact hyphenate_chars property.2
  · simp only at property
    rw [String.toList_ofList]
    exact hyphenate_chars property.2

end PropertyName

end NestedCss
