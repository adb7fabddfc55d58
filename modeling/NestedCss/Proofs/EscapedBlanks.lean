import NestedCss.Proofs.SelectorCuts
import NestedCss.Proofs.SelectorUnits

namespace NestedCss.Selector

/-- The last unit of the text that is not whitespace is a backslash pair with a blank character. -/
def EndsInEscapedBlank (chars : List Char) : Prop :=
  ∃ front blank space, chars = front ++ '\\' :: blank :: space ∧ Whole front ∧ Blank.isBlank blank ∧
    Blank.AllBlank space

/-- What was inserted is the segment without some of the whitespace around it, and every backslash of the
segment stands in it with the character that it escapes. -/
def KeepsPairs (segment inserted : List Char) : Prop :=
  ∃ before after, Blank.AllBlank before ∧ Blank.AllBlank after ∧ segment = before ++ inserted ++ after ∧
    Whole inserted

/-- A list is never cut inside a backslash pair. -/
theorem whole_of_mem_cut {chars : List Char} (whole : Whole chars) (depth : Nat) {quote : Option Char}
    (isOpen : IsOpen quote) : ∀ segment ∈ cut depth quote chars, Whole segment := by
  have inFront {front : List Char} (frontWhole : Whole front) {list : List (List Char)}
      (each : ∀ segment ∈ list, Whole segment) : ∀ segment ∈ onFirst front list, Whole segment := by
    cases list with
    | nil => simpa [onFirst] using frontWhole
    | cons first others =>
      rw [List.forall_mem_cons] at each
      exact List.forall_mem_cons.mpr ⟨frontWhole.append each.1, each.2⟩
  induction whole generalizing depth quote with
  | nil => simpa [cut] using Units.nil
  | pair c _ ih => exact inFront (.pair c .nil) (ih depth isOpen)
  | @single c rest noEscape _ _ ih =>
    obtain ⟨depthAfter, quoteAfter, isOpenAfter, goesOn | ends⟩ := cut_cons noEscape isOpen depth
    · rw [goesOn rest]
      exact inFront (.single noEscape trivial .nil) (ih depthAfter isOpenAfter)
    · rw [ends rest]
      exact List.forall_mem_cons.mpr ⟨.nil, ih depthAfter isOpenAfter⟩

/-- Trimming takes a blank character away from its backslash if that character is the end of the piece, and in no
other case. -/
theorem keepsPairs_trim_iff {segment : List Char} (whole : Whole segment) :
    KeepsPairs segment (Blank.trim segment) ↔ ¬ EndsInEscapedBlank segment := by
  constructor
  · rintro ⟨_, _, _, _, _, kept⟩ ⟨front, blank, space, rfl, frontWhole, isBlank, allBlank⟩
    have split : front ++ '\\' :: blank :: space = (front ++ ['\\']) ++ blank :: space := by simp
    rw [split, Blank.trim_append_blank (List.forall_mem_cons.mpr ⟨isBlank, allBlank⟩)] at kept
    -- The backslash stays and its character goes, so that with the space in front the text would be whole.
    obtain ⟨before, after, blankBefore, blankAfter, same⟩ := Blank.exists_trim (front ++ ['\\'])
    have together : Whole (front ++ ['\\']) := by
      rw [same]
      exact ((Literal.of_blank blankBefore).whole.append kept).append (Literal.of_blank blankAfter).whole
    exact not_units_backslash (frontWhole.append_iff.mp together)
  · intro unescaped
    obtain ⟨before, after, blankBefore, blankAfter, same⟩ := Blank.exists_trim segment
    refine ⟨before, after, blankBefore, blankAfter, same, ?_⟩
    rw [same] at whole
    rcases whole.left_or_dangling with left | ⟨front, blank, space, left, behind, frontWhole⟩
    · exact (Literal.of_blank blankBefore).whole.append_iff.mp left
    · rw [behind] at blankAfter
      obtain ⟨isBlank, allBlank⟩ := List.forall_mem_cons.mp blankAfter
      refine absurd ⟨front, blank, space, ?_, frontWhole, isBlank, allBlank⟩ unescaped
      rw [same, left, behind, List.append_assoc]
      rfl

/-- What a pattern with a placeholder is filled with. Each item comes from a piece of the list, which is cut
off between whole units, and its backslash pairs are kept unless the piece ends in an escaped blank. -/
theorem pairs_kept_iff {parent pattern : String} (whole : Whole parent.toList)
    (mentions : mentionsParent pattern.toList = true) :
    nest parent pattern =
        ", ".intercalate ((parents parent.toList).map fun item => String.ofList (fill item pattern.toList)) ∧
      (∀ item ∈ parents parent.toList, item ≠ [] →
        ∃ segment ∈ cut 0 none parent.toList, item = Blank.trim segment) ∧
      [','].intercalate (cut 0 none parent.toList) = parent.toList ∧
      ∀ segment ∈ cut 0 none parent.toList, Whole segment ∧
        (KeepsPairs segment (Blank.trim segment) ↔ ¬ EndsInEscapedBlank segment) := by
  refine ⟨if_pos mentions, ?_, intercalate_cut 0 none _, ?_⟩
  · intro item inside notEmpty
    have kept : item ∈ items parent.toList := by
      unfold parents at inside
      split at inside
      · exact absurd (List.mem_singleton.mp inside) notEmpty
      · rename_i split
        rwa [split]
    obtain ⟨segment, member, same⟩ := List.mem_map.mp (List.mem_filter.mp kept).1
    exact ⟨segment, member, same.symm⟩
  · intro segment member
    have segmentWhole := whole_of_mem_cut whole 0 isOpen_none segment member
    exact ⟨segmentWhole, keepsPairs_trim_iff segmentWhole⟩

/-- The colon of the pattern is escaped by the backslash of the parent. -/
theorem pairs_kept_iff_dangling :
    Whole ".a\\ , .b".toList ∧ mentionsParent "&:hover".toList = true ∧
      nest ".a\\ , .b" "&:hover" = ".a\\:hover, .b:hover" ∧
      ".a\\ ".toList ∈ cut 0 none ".a\\ , .b".toList ∧ EndsInEscapedBlank ".a\\ ".toList ∧
      ¬ KeepsPairs ".a\\ ".toList ".a\\".toList := by
  have whole : Whole ".a\\ , .b".toList := by decide
  have escaped : EndsInEscapedBlank ".a\\ ".toList :=
    ⟨".a".toList, ' ', [], rfl, by decide, by decide, List.forall_mem_nil _⟩
  have member : ".a\\ ".toList ∈ cut 0 none ".a\\ , .b".toList := by decide
  obtain ⟨composed, _, _, kept⟩ := @pairs_kept_iff _ "&:hover" whole (by decide)
  refine ⟨whole, by decide, ?_, member, escaped, fun keeps => ?_⟩
  · rw [composed]
    decide
  · exact (kept _ member).2.mp keeps escaped

end NestedCss.Selector
