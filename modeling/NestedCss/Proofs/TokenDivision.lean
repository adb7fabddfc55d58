import Mathlib
import NestedCss.Proofs.SelectorUnits
import NestedCss.Property.Segment

namespace NestedCss

namespace Segment

/-- The part of the value that a segment is. -/
def chars : Segment → List Char
  | word chars | quoted chars => chars
  | single c => [c]

/-- A quote, backslash pairs and characters other than the quote, and the quote again. -/
def Closed (span : List Char) : Prop :=
  ∃ mark inside, isQuote mark = true ∧ Selector.Units (· ≠ mark) inside ∧ span = mark :: inside ++ [mark]

/-- A span without its closing quote. A backslash at its end has no character behind it. -/
def Unclosed (span : List Char) : Prop :=
  ∃ mark inside, isQuote mark = true ∧ Selector.Units (· ≠ mark) inside ∧
    (span = mark :: inside ∨ span = mark :: inside ++ ['\\'])

/-- What the segments of each kind are. -/
def Proper : Segment → Prop
  | word run => run ≠ [] ∧ ∀ c ∈ run, isWordChar c = true
  | quoted span => Closed span ∨ Unclosed span
  | single c => isWordChar c = false ∧ isQuote c = false

/-- Which segments can stand directly one before the other: two runs would be one, and only its closing quote
ends a span. -/
def Precedes : Segment → Segment → Prop
  | word _, word _ => False
  | quoted span, _ => Closed span
  | _, _ => True

/-- A value is divided into segments. -/
structure Division (segments : List Segment) (value : List Char) : Prop where
  text : segments.flatMap chars = value
  proper : ∀ segment ∈ segments, segment.Proper
  inOrder : segments.IsChain Precedes

theorem quote_ne_backslash {mark : Char} (quote : isQuote mark = true) : mark ≠ '\\' := by
  rintro rfl
  cases quote

theorem not_word_of_quote {mark : Char} (quote : isQuote mark = true) : isWordChar mark = false := by
  simp only [isQuote, Bool.or_eq_true, beq_iff_eq] at quote
  rcases quote with rfl | rfl <;> rfl

section Quotes
variable {mark : Char} {inside rest : List Char}

theorem closeQuote_cons {c : Char} (noEscape : c ≠ '\\') (rest : List Char) : closeQuote mark (c :: rest) =
    if c == mark then ([c], rest) else (c :: (closeQuote mark rest).1, (closeQuote mark rest).2) :=
  closeQuote.eq_4 mark c rest (fun same _ => noEscape same) fun _ _ same _ => noEscape same

/-- Backslash pairs and characters other than the quote belong to a span. -/
theorem closeQuote_units (units : Selector.Units (· ≠ mark) inside) (rest : List Char) :
    closeQuote mark (inside ++ rest) = (inside ++ (closeQuote mark rest).1, (closeQuote mark rest).2) := by
  induction units with
  | nil => rfl
  | pair c _ ih => simp only [List.cons_append, closeQuote, ih]
  | single noEscape noQuote _ ih =>
    rw [List.cons_append, closeQuote_cons noEscape, if_neg (by simpa using noQuote), ih]
    rfl

theorem closeQuote_quote (noEscape : mark ≠ '\\') (rest : List Char) : closeQuote mark (mark :: rest) = ([mark], rest) := by
  rw [closeQuote_cons noEscape, if_pos (beq_self_eq_true mark)]

/-- What follows an opening quote goes on to the quote that closes the span, or to the end of the value. -/
theorem exists_units (mark : Char) (chars : List Char) : ∃ inside, Selector.Units (· ≠ mark) inside ∧
    ((∃ rest, chars = inside ++ mark :: rest) ∨ chars = inside ∨ chars = inside ++ ['\\']) := by
  induction chars using Selector.unit_induction with
  | nil => exact ⟨[], .nil, .inr (.inl rfl)⟩
  | dangling => exact ⟨[], .nil, .inr (.inr rfl)⟩
  | pair c rest ih =>
    obtain ⟨inside, units, ⟨after, rfl⟩ | rfl | rfl⟩ := ih
    · exact ⟨_, .pair c units, .inl ⟨after, rfl⟩⟩
    · exact ⟨_, .pair c units, .inr (.inl rfl)⟩
    · exact ⟨_, .pair c units, .inr (.inr rfl)⟩
  | single c rest noEscape ih =>
    by_cases closes : c = mark
    · subst closes
      exact ⟨[], .nil, .inl ⟨rest, rfl⟩⟩
    · obtain ⟨inside, units, ⟨after, rfl⟩ | rfl | rfl⟩ := ih
      · exact ⟨_, .single noEscape closes units, .inl ⟨after, rfl⟩⟩
      · exact ⟨_, .single noEscape closes units, .inr (.inl rfl)⟩
      · exact ⟨_, .single noEscape closes units, .inr (.inr rfl)⟩

/-- A span ends with its closing quote, or else with the value, and nothing is lost. -/
theorem closeQuote_division (quote : isQuote mark = true) (rest : List Char) :
    (Closed (mark :: (closeQuote mark rest).1) ∨
      Unclosed (mark :: (closeQuote mark rest).1) ∧ (closeQuote mark rest).2 = []) ∧
    (closeQuote mark rest).1 ++ (closeQuote mark rest).2 = rest := by
  obtain ⟨inside, units, ⟨after, rfl⟩ | rfl | rfl⟩ := exists_units mark rest
  · rw [closeQuote_units units, closeQuote_quote (quote_ne_backslash quote)]
    exact ⟨.inl ⟨mark, inside, quote, units, rfl⟩, by simp⟩
  · have all := closeQuote_units units []
    rw [List.append_nil] at all
    rw [all]
    exact ⟨.inr ⟨⟨mark, rest, quote, units, .inl (by simp [closeQuote])⟩, rfl⟩, by simp [closeQuote]⟩
  · rw [closeQuote_units units]
    exact ⟨.inr ⟨⟨mark, inside, quote, units, .inr rfl⟩, rfl⟩, by simp [closeQuote]⟩

end Quotes

/-- A run of word characters is one segment, as long as it can be. -/
theorem ofChars_word {run rest : List Char} (some : run ≠ []) (own : ∀ c ∈ run, isWordChar c = true)
    (ends : ∀ c ∈ rest.head?, isWordChar c = false) : ofChars (run ++ rest) = word run :: ofChars rest := by
  obtain ⟨c, run, rfl⟩ := List.exists_cons_of_ne_nil some
  rw [List.forall_mem_cons] at own
  have stops : rest.takeWhile isWordChar = [] ∧ rest.dropWhile isWordChar = rest := by
    cases rest with
    | nil => exact ⟨rfl, rfl⟩
    | cons next rest => simp [ends next rfl]
  rw [List.cons_append, ofChars, if_pos own.1, List.takeWhile_append_of_pos own.2, List.dropWhile_append_of_pos own.2,
    stops.1, stops.2, List.append_nil]

theorem ofChars_quote {mark : Char} (quote : isQuote mark = true) (rest : List Char) :
    ofChars (mark :: rest) = quoted (mark :: (closeQuote mark rest).1) :: ofChars (closeQuote mark rest).2 := by
  rw [ofChars, if_neg (by simp [not_word_of_quote quote]), if_pos quote]

theorem ofChars_single {c : Char} (noWord : isWordChar c = false) (noQuote : isQuote c = false) (rest : List Char) :
    ofChars (c :: rest) = single c :: ofChars rest := by
  rw [ofChars, if_neg (by simp [noWord]), if_neg (by simp [noQuote])]

theorem ofChars_closed {span : List Char} (closed : Closed span) (rest : List Char) :
    ofChars (span ++ rest) = quoted span :: ofChars rest := by
  obtain ⟨mark, inside, quote, units, rfl⟩ := closed
  rw [List.cons_append, List.cons_append, List.append_assoc, ofChars_quote quote, closeQuote_units units,
    List.singleton_append, closeQuote_quote (quote_ne_backslash quote)]

/-- A span that is not closed goes on to the end of the value. -/
theorem ofChars_unclosed {span : List Char} (unclosed : Unclosed span) : ofChars span = [quoted span] := by
  obtain ⟨mark, inside, quote, units, rfl | rfl⟩ := unclosed
  · have whole := closeQuote_units units []
    rw [List.append_nil] at whole
    rw [ofChars_quote quote, whole]
    simp [closeQuote, ofChars]
  · rw [List.cons_append, ofChars_quote quote, closeQuote_units units]
    simp [closeQuote, ofChars]

theorem Proper.head {segment : Segment} (proper : segment.Proper) (noRun : ∀ run, segment ≠ word run) :
    ∃ c rest, segment.chars = c :: rest ∧ isWordChar c = false := by
  cases segment with
  | word run => exact absurd rfl (noRun run)
  | quoted span =>
    obtain ⟨mark, inside, quote, -, rfl⟩ | ⟨mark, inside, quote, -, rfl | rfl⟩ := proper
    all_goals exact ⟨mark, _, rfl, not_word_of_quote quote⟩
  | single c => exact ⟨c, [], rfl, proper.1⟩

namespace Division
variable {segment : Segment} {segments : List Segment} {value : List Char}

theorem tail (division : Division (segment :: segments) value) : Division segments (segments.flatMap chars) :=
  ⟨rfl, fun other inside => division.proper other (List.mem_cons_of_mem _ inside), division.inOrder.tail⟩

theorem cons {rest : List Char} (division : Division segments rest) (proper : segment.Proper)
    (before : ∀ next ∈ segments.head?, Precedes segment next) (whole : segment.chars ++ rest = value) :
    Division (segment :: segments) value :=
  ⟨by rw [List.flatMap_cons, division.text, whole], List.forall_mem_cons.mpr ⟨proper, division.proper⟩,
    List.isChain_cons.mpr ⟨before, division.inOrder⟩⟩

/-- What does not begin with a word character has no run in front. -/
theorem head_iff (division : Division segments value) :
    (∀ c ∈ value.head?, isWordChar c = false) ↔ ∀ run, word run ∉ segments.head? := by
  obtain ⟨rfl, proper, -⟩ := division
  cases segments with
  | nil => simp
  | cons segment segments =>
    have own := proper segment (List.mem_cons_self ..)
    cases segment with
    | word run =>
      obtain ⟨c, run, rfl⟩ := List.exists_cons_of_ne_nil own.1
      simp [chars, own.2]
    | quoted | single =>
      obtain ⟨c, rest, same, noWord⟩ := own.head nofun
      simp [same, noWord]

/-- There is no other division than the one into the segments of the value. -/
theorem eq_ofChars (division : Division segments value) : segments = ofChars value := by
  induction segments generalizing value with
  | nil =>
    rw [← division.text]
    simp [ofChars]
  | cons segment segments ih =>
    have rest := ih division.tail
    have own := division.proper segment (List.mem_cons_self ..)
    have before := (List.isChain_cons.mp division.inOrder).1
    rw [← division.text, List.flatMap_cons]
    cases segment with
    | word run =>
      have noRun : ∀ run, word run ∉ segments.head? := fun _ inside => before _ inside
      rw [chars, ofChars_word own.1 own.2 (division.tail.head_iff.mpr noRun), ← rest]
    | single c => rw [chars, List.singleton_append, ofChars_single own.1 own.2, ← rest]
    | quoted span =>
      rcases own with closed | unclosed
      · rw [chars, ofChars_closed closed, ← rest]
      · -- a span that is not closed is the last segment, since another one only stands behind a closed span
        cases segments with
        | nil => simp [chars, ofChars_unclosed unclosed]
        | cons next others => rw [chars, ofChars_closed (before next rfl), ← rest]

/-- The segments of a value are a division of it. -/
theorem ofChars_division (value : List Char) : Division (ofChars value) value := by
  fun_induction ofChars value with
  | case1 => exact ⟨rfl, nofun, .nil⟩
  | case2 c rest isWord ih =>
    have noRun := ih.head_iff.mp fun next first => by
      have ends := List.head?_dropWhile_not isWordChar rest
      rw [first] at ends
      exact ends
    have run : ∀ next ∈ c :: rest.takeWhile isWordChar, isWordChar next = true :=
      List.forall_mem_cons.mpr ⟨isWord, List.all_eq_true.mp List.all_takeWhile⟩
    refine ih.cons ⟨List.cons_ne_nil _ _, run⟩ (fun next first => ?_) ?_
    · cases next with
      | word other => exact noRun other first
      | quoted | single => trivial
    · rw [chars, List.cons_append, List.takeWhile_append_dropWhile]
  | case3 c rest noWord quote ih =>
    obtain ⟨ends, whole⟩ := closeQuote_division quote rest
    refine ih.cons (ends.imp_right And.left) (fun next first => ?_) ?_
    · rcases ends with closed | ⟨-, nothing⟩
      · exact closed
      · simp [nothing, ofChars] at first
    · rw [chars, List.cons_append, whole]
  | case4 c rest noWord noQuote ih =>
    exact ih.cons ⟨Bool.eq_false_iff.mpr noWord, Bool.eq_false_iff.mpr noQuote⟩ (fun _ _ => trivial) rfl

end Division

/-- Where each segment resolves to itself, the value stays as it is. -/
theorem join_map_resolve {chain : ResolverChain} {property : String} {segments : List Segment}
    (unchanged : ∀ segment ∈ segments, segment.resolve chain property = String.ofList segment.chars) :
    String.join (segments.map (resolve chain property)) = String.ofList (segments.flatMap chars) := by
  induction segments with
  | nil => rfl
  | cons segment rest ih =>
    rw [List.forall_mem_cons] at unchanged
    rw [List.map_cons, String.join_cons, unchanged.1, ih unchanged.2, List.flatMap_cons, String.ofList_append]

end Segment

/-- Substitution loses nothing. A value is divided into runs of word characters, quoted spans and other
characters in exactly one way. What is put for it are the texts of its segments in order, those of the runs and
spans resolved for the property and the other characters as they are. Where the chain leaves every run and span
unchanged, the value stays. -/
theorem substitution_is_lossless (value property : String) (chain : ResolverChain) :
    ∃ segments, Segment.Division segments value.toList ∧
      (∀ others, Segment.Division others value.toList → others = segments) ∧
      resolveTokens value property chain = String.join (segments.map fun
        | .word token | .quoted token => chain.resolve (String.ofList token) property
        | .single c => String.singleton c) ∧
      ((∀ token, .word token ∈ segments ∨ .quoted token ∈ segments →
          chain.resolve (String.ofList token) property = String.ofList token) →
        resolveTokens value property chain = value) := by
  have division := Segment.Division.ofChars_division value.toList
  refine ⟨_, division, fun others => Segment.Division.eq_ofChars, rfl, fun unchanged => ?_⟩
  have kept : ∀ segment ∈ Segment.ofChars value.toList,
      segment.resolve chain property = String.ofList segment.chars := by
    intro segment inside
    cases segment with
    | word token => exact unchanged token (.inl inside)
    | quoted token => exact unchanged token (.inr inside)
    | single c => exact String.singleton_eq_ofList
  rw [resolveTokens, Segment.join_map_resolve kept, division.text, String.ofList_toList]

/-- An escaped quote does not close a span, a span ends a run, and a span that is not closed goes on to the
end with a backslash there. -/
theorem substitution_is_lossless_unclosed :
    let value := "x-1 '\\'$y'$$z\"$w\\"
    let segments : List Segment := [.word "x-1".toList, .single ' ', .quoted "'\\'$y'".toList, .word "$$z".toList,
      .quoted "\"$w\\".toList]
    Segment.Division segments value.toList ∧
      resolveTokens value "content" [] = "x-1 '\\'$y'var(--z)\"$w\\" := by
  intro value segments
  have same : Segment.ofChars value.toList = segments := by cbv
  have division : Segment.Division segments value.toList := same ▸ Segment.Division.ofChars_division value.toList
  obtain ⟨others, -, unique, resolved, -⟩ := substitution_is_lossless value "content" []
  refine ⟨division, ?_⟩
  rw [resolved, ← unique segments division]
  cbv

end NestedCss
