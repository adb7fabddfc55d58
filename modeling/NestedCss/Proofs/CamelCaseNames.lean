import Mathlib
import NestedCss.Proofs.DeclaredNames

namespace NestedCss.PropertyName

/-- The other direction: a hyphen and a small letter become a capital. -/
def camelize : List Char → List Char
  | [] => []
  | [c] => [c]
  | c :: next :: rest =>
    if c = '-' ∧ next.isLower then next.toUpper :: camelize rest else c :: camelize (next :: rest)

def camelized (name : String) : String :=
  String.ofList (camelize name.toList)

/-- No hyphen stands directly in front of a small letter. -/
def IsCamelCase (name : List Char) : Prop :=
  name.IsChain fun c next => c = '-' → next.isLower = false

instance (name : List Char) : Decidable (IsCamelCase name) :=
  inferInstanceAs (Decidable (name.IsChain _))

variable {name : List Char}

theorem isUpper_hyphenate (name : List Char) : ∀ c ∈ hyphenate name, c.isUpper = false :=
  forall_mem_hyphenate (by decide) (fun c _ _ => c.isUpper_toLower_eq_false) fun _ _ small => small

theorem hyphenate_eq_self (small : ∀ c ∈ name, c.isUpper = false) : hyphenate name = name := by
  induction name with
  | nil => rfl
  | cons c rest ih =>
    rw [List.forall_mem_cons] at small
    rw [hyphenate, small.1, ih small.2]
    rfl

theorem head?_hyphenate (name : List Char) :
    (hyphenate name).head? = name.head?.map fun c => if c.isUpper then '-' else c := by
  cases name with
  | nil => rfl
  | cons c rest =>
    rw [hyphenate]
    split <;> simp_all

theorem camelize_capital {c : Char} (capital : c.isUpper) (rest : List Char) :
    camelize ('-' :: c.toLower :: rest) = c :: camelize rest := by
  have small : c.toLower.isLower := by simp [Char.isAlpha, capital]
  have back : c.toLower.toUpper = c := by
    rw [Char.toUpper_toLower_eq_toUpper, Char.toUpper_eq_of_not_isLower (Char.not_isLower_of_isUpper capital)]
  rw [camelize, if_pos ⟨rfl, small⟩, back]

/-- A character that is not a hyphen in front of a small letter is read as itself. -/
theorem camelize_cons {c : Char} (apart : ∀ next ∈ name.head?, c = '-' → next.isLower = false) :
    camelize (c :: name) = c :: camelize name := by
  cases name with
  | nil => rfl
  | cons next rest =>
    have kept : ¬(c = '-' ∧ next.isLower) := by simpa using apart
    rw [camelize, if_neg kept]

theorem camelize_hyphenate (camelCase : IsCamelCase name) : camelize (hyphenate name) = name := by
  induction name with
  | nil => rfl
  | cons c rest ih =>
    obtain ⟨apart, inside⟩ := List.isChain_cons.mp camelCase
    rw [hyphenate]
    split
    · rename_i capital
      rw [camelize_capital capital, ih inside]
    · -- A hyphen of the name stays one: behind it comes what came there before, or the hyphen of a capital.
      have apartAfter : ∀ next ∈ (hyphenate rest).head?, c = '-' → next.isLower = false := by
        intro next first hyphen
        rw [head?_hyphenate] at first
        obtain ⟨letter, atHead, rfl⟩ := Option.mem_map.mp first
        split
        · rfl
        · exact apart letter atHead hyphen
      rw [camelize_cons apartAfter, ih inside]

theorem head?_camelize {c next : Char} {rest : List Char} (first : next ∈ (camelize (c :: rest)).head?) :
    next = c ∨ next.isLower = false := by
  cases rest with
  | nil => exact .inl (by simpa [camelize, eq_comm] using first)
  | cons second rest =>
    rw [camelize] at first
    split at first
    · have capital : second.toUpper = next := by simpa using first
      exact .inr (capital ▸ second.isLower_toUpper_eq_false)
    · exact .inl (by simpa [eq_comm] using first)

/-- What has been read back is in camel case, since each hyphen in front of a small letter has gone. -/
theorem isCamelCase_camelize (name : List Char) : IsCamelCase (camelize name) := by
  induction name using camelize.induct with
  | case1 => exact .nil
  | case2 c => exact .singleton c
  | case3 c next rest merged ih =>
    rw [camelize, if_pos merged]
    refine List.isChain_cons.mpr ⟨fun _ _ hyphen => ?_, ih⟩
    have capital : next.toUpper.isUpper := by simp [Char.isAlpha, merged.2]
    rw [hyphen] at capital
    cases capital
  | case4 c next rest kept ih =>
    rw [camelize, if_neg kept]
    refine List.isChain_cons.mpr ⟨fun second first hyphen => ?_, ih⟩
    rcases head?_camelize first with rfl | capital
    · exact Bool.eq_false_iff.mpr fun small => kept ⟨hyphen, small⟩
    · exact capital

/-- Reading back undoes the conversion of the names in camel case, and of no others. -/
theorem camelize_hyphenate_iff : camelize (hyphenate name) = name ↔ IsCamelCase name :=
  ⟨fun back => back ▸ isCamelCase_camelize (hyphenate name), camelize_hyphenate⟩

theorem camelized_hyphenated_iff {name : String} :
    camelized (hyphenated name) = name ↔ IsCamelCase name.toList := by
  rw [← camelize_hyphenate_iff, camelized, hyphenated, String.toList_ofList, ← String.toList_inj, String.toList_ofList]

/-- Names in camel case are converted apart, for each of them can be read back. -/
theorem hyphenated_injective {one other : String} (oneCase : IsCamelCase one.toList)
    (otherCase : IsCamelCase other.toList) (same : hyphenated one = hyphenated other) : one = other := by
  rw [← camelized_hyphenated_iff.mpr oneCase, same, camelized_hyphenated_iff.mpr otherCase]

theorem ofKey_plain {key : String} (plain : key.toList.head? ≠ some '$') : ofKey key = hyphenated key := by
  unfold ofKey
  split
  · rename_i sigil
    exact absurd (by rw [sigil]; rfl) plain
  · rfl

theorem exists_sigil {key : String} (custom : key.toList.head? = some '$') : ∃ name, key = "$" ++ name := by
  obtain ⟨name, chars⟩ := List.head?_eq_some_iff.mp custom
  refine ⟨String.ofList name, String.toList_inj.mp ?_⟩
  rw [chars, toList_sigil, String.toList_ofList]

theorem isCamelCase_of_sigil {name : String} (camelCase : IsCamelCase ("$" ++ name).toList) :
    IsCamelCase name.toList := by
  rw [toList_sigil] at camelCase
  exact (List.isChain_cons.mp camelCase).2

/-- Names are not merged. Converting a name again changes nothing, since no capital is left. A name can be read back
exactly if it is in camel case, so that no two such names are converted alike, and no two such keys of one kind, plain
or with a sigil, declare the same property. -/
theorem conversion_keeps_names_apart :
    (∀ name, hyphenated (hyphenated name) = hyphenated name) ∧
      (∀ name, ∀ c ∈ (hyphenated name).toList, c.isUpper = false) ∧
      (∀ name, camelized (hyphenated name) = name ↔ IsCamelCase name.toList) ∧
      (∀ one other : String, IsCamelCase one.toList → IsCamelCase other.toList → one ≠ other →
        hyphenated one ≠ hyphenated other) ∧
      ∀ one other : String, IsCamelCase one.toList → IsCamelCase other.toList →
        (one.toList.head? = some '$' ↔ other.toList.head? = some '$') → one ≠ other → ofKey one ≠ ofKey other := by
  refine ⟨fun name => ?_, fun name => ?_, fun name => camelized_hyphenated_iff, fun one other oneCase otherCase => ?_,
    fun one other oneCase otherCase kind => ?_⟩
  · rw [hyphenated, hyphenated, String.toList_ofList, hyphenate_eq_self (isUpper_hyphenate _)]
  · rw [hyphenated, String.toList_ofList]
    exact isUpper_hyphenate _
  · exact mt (hyphenated_injective oneCase otherCase)
  · refine mt fun same => ?_
    by_cases custom : one.toList.head? = some '$'
    · obtain ⟨name, rfl⟩ := exists_sigil custom
      obtain ⟨otherName, rfl⟩ := exists_sigil (kind.mp custom)
      rw [ofKey_sigil, ofKey_sigil, String.append_right_inj] at same
      rw [hyphenated_injective (isCamelCase_of_sigil oneCase) (isCamelCase_of_sigil otherCase) same]
    · rw [ofKey_plain custom, ofKey_plain (mt kind.mpr custom)] at same
      exact hyphenated_injective oneCase otherCase same

/-- A hyphen in front of a capital makes another name. In front of a small letter it does not: there the name
converts like the one with the capital. -/
theorem conversion_keeps_names_apart_hyphen :
    IsCamelCase "$brand-Color".toList ∧ IsCamelCase "$brandColor".toList ∧
      ofKey "$brand-Color" = "--brand--color" ∧ ofKey "$brandColor" = "--brand-color" ∧
      ofKey "$brand-Color" ≠ ofKey "$brandColor" ∧ hyphenated "WebkitDrag" ≠ hyphenated "webkitDrag" ∧
      camelized (hyphenated "WebkitDrag") = "WebkitDrag" ∧ hyphenated "brand-color" = hyphenated "brandColor" := by
  have hyphen : IsCamelCase "$brand-Color".toList := by decide
  have noHyphen : IsCamelCase "$brandColor".toList := by decide
  have vendor : IsCamelCase "WebkitDrag".toList := by decide
  obtain ⟨-, -, readBack, namesApart, keysApart⟩ := conversion_keeps_names_apart
  exact ⟨hyphen, noHyphen, by decide, by decide, keysApart _ _ hyphen noHyphen (by decide) (by decide),
    namesApart _ _ vendor (by decide) (by decide), (readBack _).mpr vendor, by decide⟩

end NestedCss.PropertyName
