import Mathlib
import NestedCss.Proofs.TokenDivision

namespace NestedCss.Segment

variable {front back : List Segment} {segment : Segment} {s t before after run span : List Char}

theorem Division.single (proper : segment.Proper) : Division [segment] segment.chars :=
  ⟨List.append_nil _, List.forall_mem_singleton.mpr proper, .singleton _⟩

/-- Two divisions can be joined where the last segment of the one may stand before the first of the other. -/
theorem Division.append (first : Division front s) (second : Division back t)
    (meet : ∀ left ∈ front.getLast?, ∀ right ∈ back.head?, Precedes left right) :
    Division (front ++ back) (s ++ t) where
  text := by rw [List.flatMap_append, first.text, second.text]
  proper := List.forall_mem_append.mpr ⟨first.proper, second.proper⟩
  inOrder := List.isChain_append.mpr ⟨first.inOrder, second.inOrder, meet⟩

/-- What does not end with a word character has no run at its end. -/
theorem Division.not_word_of_last (division : Division front s) (last : ∀ c ∈ s.getLast?, isWordChar c = false) :
    ∀ run, word run ∉ front.getLast? := by
  intro run inside
  obtain ⟨others, rfl⟩ := List.getLast?_eq_some_iff.mp inside
  have own := division.proper (word run) (by simp)
  have whole := division.text
  rw [List.flatMap_append, List.flatMap_singleton] at whole
  obtain ⟨run, c, rfl⟩ := List.eq_nil_or_concat run |>.resolve_left own.1
  have noWord := last c (by rw [← whole]; simp [chars])
  rw [own.2 c (by simp)] at noWord
  cases noWord

/-- The end of the text is outside of quotes. -/
def Outside (before : List Char) : Prop :=
  ∃ segments, Division segments before ∧ ∀ span, quoted span ∈ segments → Closed span

/-- Where the end of a text is outside of quotes, each of its quoted spans is closed. -/
theorem Outside.closed (outside : Outside before) (inside : quoted span ∈ ofChars before) : Closed span := by
  obtain ⟨segments, division, closed⟩ := outside
  rw [← division.eq_ofChars] at inside
  exact closed span inside

/-- The run stands between two texts and goes on into neither. It begins outside of quotes. -/
structure RunBetween (before run after : List Char) : Prop where
  outside : Outside before
  proper : (word run).Proper
  begins : ∀ c ∈ before.getLast?, isWordChar c = false
  ends : ∀ c ∈ after.head?, isWordChar c = false

/-- The quoted span stands between two texts. It begins outside of other quotes, and if it is not closed, nothing
follows. -/
structure SpanBetween (before span after : List Char) : Prop where
  outside : Outside before
  ends : Closed span ∨ Unclosed span ∧ after = []

/-- A segment between two texts, with the segments that these have on their own. -/
abbrev Between (before : List Char) (segment : Segment) (after : List Char) : Prop :=
  Division (ofChars before ++ segment :: ofChars after) (before ++ (segment.chars ++ after))

/-- Outside of quotes, only a run can be in the way of a segment. -/
theorem Outside.between (outside : Outside before) (proper : segment.Proper)
    (begins : ∀ run, word run ∈ (ofChars before).getLast? → Precedes (word run) segment)
    (ends : ∀ right ∈ (ofChars after).head?, Precedes segment right) : Between before segment after := by
  have first := Division.ofChars_division before
  have rest := (Division.ofChars_division after).cons proper ends rfl
  refine first.append rest fun left last right head => ?_
  cases head
  cases left with
  | word run => exact begins run last
  | quoted span => exact outside.closed (List.mem_of_getLast? last)
  | single => trivial

theorem RunBetween.between (place : RunBetween before run after) : Between before (word run) after := by
  have first := (Division.ofChars_division before).not_word_of_last place.begins
  have second := (Division.ofChars_division after).head_iff.mp place.ends
  refine place.outside.between place.proper (fun other last => absurd last (first other)) fun right head => ?_
  cases right with
  | word other => exact second other head
  | quoted | single => trivial

theorem SpanBetween.between (place : SpanBetween before span after) : Between before (quoted span) after := by
  refine place.outside.between (place.ends.imp_right And.left) (fun _ _ => trivial) fun right head => ?_
  rcases place.ends with closed | ⟨-, rfl⟩
  · exact closed
  · simp [ofChars] at head

/-- The texts on both sides of the segment are substituted as if they stood alone. -/
theorem Between.resolveTokens_eq {before token after : String} (place : Between before.toList segment after.toList)
    (own : segment.chars = token.toList) (property : String) (chain : ResolverChain) :
    resolveTokens (before ++ token ++ after) property chain =
      resolveTokens before property chain ++ segment.resolve chain property ++ resolveTokens after property chain := by
  have segments : ofChars (before ++ token ++ after).toList =
      ofChars before.toList ++ segment :: ofChars after.toList := by
    rw [String.append_assoc, String.toList_append, String.toList_append, ← own]
    exact place.eq_ofChars.symm
  rw [resolveTokens, segments, List.map_append, List.map_cons, String.join_append, String.join_cons,
    ← String.append_assoc]
  rfl

end NestedCss.Segment
