import Mathlib
import NestedCss.Text.Fingerprint

namespace NestedCss

namespace Fingerprint

/-- What a figure or a small letter counts in base 36. -/
def digitValue (c : Char) : Nat :=
  if c.isDigit then c.toNat - '0'.toNat else c.toNat - 'a'.toNat + 10

/-- The number that is written in base 36, the highest digit first. -/
def read36 (digits : List Char) : Nat :=
  digits.foldl (fun number c => number * 36 + digitValue c) 0

/-- Figures and small letters, at least one. No zero stands in front, but zero itself is written. -/
structure Numeral (digits : List Char) : Prop where
  ne_nil : digits ≠ []
  digit : ∀ c ∈ digits, c.isDigit ∨ c.isLower
  noZero : digits.head? = some '0' → digits = ['0']

section Digit
variable {value : Nat}

theorem digitValue_digit (bound : value < 36) : digitValue (digit value) = value := by
  have all : ∀ value : Fin 36, digitValue (digit value) = value := by decide
  exact all ⟨value, bound⟩

theorem isDigit_or_isLower_digit (bound : value < 36) : (digit value).isDigit ∨ (digit value).isLower := by
  have all : ∀ value : Fin 36, (digit value).isDigit ∨ (digit value).isLower := by decide
  exact all ⟨value, bound⟩

end Digit

theorem read36_snoc (digits : List Char) (c : Char) : read36 (digits ++ [c]) = read36 digits * 36 + digitValue c := by
  simp [read36]

theorem base36_ne_nil (number : Nat) : base36 number ≠ [] := by
  unfold base36
  split <;> simp

theorem base36_digit (number : Nat) : ∀ c ∈ base36 number, c.isDigit ∨ c.isLower := by
  fun_induction base36 number with
  | case1 number small =>
    rw [List.forall_mem_singleton]
    exact isDigit_or_isLower_digit small
  | case2 number _ ih =>
    rw [List.forall_mem_append, List.forall_mem_singleton]
    exact ⟨ih, isDigit_or_isLower_digit (Nat.mod_lt _ (by decide))⟩

/-- Reading undoes writing. -/
theorem read36_base36 (number : Nat) : read36 (base36 number) = number := by
  fun_induction base36 number with
  | case1 number small => simp [read36, digitValue_digit small]
  | case2 number _ ih =>
    rw [read36_snoc, ih, digitValue_digit (Nat.mod_lt _ (by decide))]
    exact Nat.div_add_mod' number 36

/-- A zero in front is the whole number. -/
theorem eq_zero_of_head (number : Nat) (zero : (base36 number).head? = some '0') : number = 0 := by
  fun_induction base36 number with
  | case1 number small =>
    have same : digit number = '0' := by simpa using zero
    rw [← digitValue_digit small, same]
    rfl
  | case2 number large ih =>
    rw [List.head?_append_of_ne_nil _ (base36_ne_nil _)] at zero
    have := ih zero
    omega

/-- A number is written without zeros in front. -/
theorem base36_numeral (number : Nat) : Numeral (base36 number) where
  ne_nil := base36_ne_nil number
  digit := base36_digit number
  noZero zero := by
    rw [eq_zero_of_head number zero, base36]
    rfl

/-- Every digit more makes room for 36 times as many numbers. -/
theorem base36_length_le {number count : Nat} (bound : number < 36 ^ (count + 1)) :
    (base36 number).length ≤ count + 1 := by
  induction count generalizing number with
  | zero =>
    rw [base36, if_pos (by simpa using bound)]
    exact Nat.le_refl 1
  | succ count ih =>
    rw [base36]
    split
    · simp
    · have high : number / 36 < 36 ^ (count + 1) := by omega
      have := ih high
      rw [List.length_append, List.length_singleton]
      omega

/-- The digits for a hash are at most six. -/
theorem base36_length_lt (hash : UInt32) : (base36 (hash.toNat / 2)).length < width := by
  have bound : hash.toNat / 2 < 36 ^ (5 + 1) := by
    have := hash.toNat_lt
    omega
  exact Nat.lt_succ_of_le (base36_length_le bound)

/-- The digits leave room for an underscore. -/
theorem exists_toList_ofHash (hash : UInt32) : ∃ more, more + 1 + (base36 (hash.toNat / 2)).length = width ∧
    (ofHash hash).toList = '_' :: List.replicate more '_' ++ base36 (hash.toNat / 2) := by
  obtain ⟨more, count⟩ := Nat.exists_eq_add_of_lt (base36_length_lt hash)
  refine ⟨more, by omega, ?_⟩
  have padding : width - (base36 (hash.toNat / 2)).length = more + 1 := by omega
  rw [ofHash, String.toList_ofList, pad, padding, List.replicate_succ]

/-- Digits are found behind the padding, since no digit is an underscore. -/
theorem dropWhile_pad {digits : List Char} (numeral : Numeral digits) :
    (pad digits).dropWhile (· == '_') = digits := by
  rw [pad, List.dropWhile_append_of_pos (by simp)]
  obtain ⟨c, rest, rfl⟩ := List.exists_cons_of_ne_nil numeral.ne_nil
  have other : c ≠ '_' := by
    rintro rfl
    exact absurd (numeral.digit _ (List.mem_cons_self ..)) (by decide)
  rw [List.dropWhile_cons, if_neg (by simpa using other)]

/-- Two hashes have the same fingerprint exactly if they differ in the lowest bit at most. -/
theorem ofHash_eq_iff (hash other : UInt32) : ofHash hash = ofHash other ↔ hash >>> 1 = other >>> 1 := by
  have halves : hash >>> 1 = other >>> 1 ↔ hash.toNat / 2 = other.toNat / 2 := by
    rw [← UInt32.toNat_inj]
    simp [Nat.shiftRight_eq_div_pow]
  rw [halves]
  refine ⟨fun same => ?_, fun same => by rw [ofHash, ofHash, same]⟩
  have digits := congrArg (List.dropWhile (· == '_')) (String.ofList_injective same)
  rw [dropWhile_pad (base36_numeral _), dropWhile_pad (base36_numeral _)] at digits
  rw [← read36_base36 (hash.toNat / 2), digits, read36_base36]

end Fingerprint

/-- Fingerprints are faithful. Each has seven characters and begins with an underscore; it is a numeral behind
underscores, which writes half of the hash in base 36. Two texts share one exactly if their hashes differ at most
in the lowest bit. -/
theorem fingerprints_are_faithful :
    (∀ text, (fingerprint text).length = 7 ∧ (fingerprint text).toList.head? = some '_' ∧
      ∃ underscores digits, (fingerprint text).toList = List.replicate underscores '_' ++ digits ∧
        Fingerprint.Numeral digits ∧ Fingerprint.read36 digits = (Hash32.ofString text).toNat / 2) ∧
    ∀ text other, fingerprint text = fingerprint other ↔
      Hash32.ofString text >>> 1 = Hash32.ofString other >>> 1 := by
  refine ⟨fun text => ?_, fun text other => Fingerprint.ofHash_eq_iff _ _⟩
  obtain ⟨more, count, chars⟩ := Fingerprint.exists_toList_ofHash (Hash32.ofString text)
  rw [← String.length_toList, fingerprint, chars]
  refine ⟨?_, rfl, more + 1, _, rfl, Fingerprint.base36_numeral _, Fingerprint.read36_base36 _⟩
  rw [List.length_append, List.length_cons, List.length_replicate, count]
  rfl

example : fingerprint "" = "__dz4hu" := by cbv

end NestedCss
