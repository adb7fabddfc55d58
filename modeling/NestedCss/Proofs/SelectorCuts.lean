import NestedCss.Rule.Selector

namespace NestedCss.Selector

def IsOpen (quote : Option Char) : Prop := ∀ mark ∈ quote, mark = '"' ∨ mark = '\''

theorem onFirst_nil {list : List (List Char)} (notEmpty : list ≠ []) : onFirst [] list = list := by
  cases list with
  | nil => exact absurd rfl notEmpty
  | cons => rfl

theorem onFirst_onFirst (before between : List Char) (list : List (List Char)) :
    onFirst before (onFirst between list) = onFirst (before ++ between) list := by
  cases list <;> simp [onFirst]

theorem intercalate_onFirst (separator before : List Char) (list : List (List Char)) :
    separator.intercalate (onFirst before list) = before ++ separator.intercalate list := by
  rcases list with _ | ⟨first, _ | ⟨second, others⟩⟩ <;> simp [onFirst]

theorem cut_ne_nil (depth : Nat) (quote : Option Char) (chars : List Char) : cut depth quote chars ≠ [] := by
  have onFirst_ne_nil : ∀ before list, onFirst before list ≠ [] := by
    intro before list
    cases list <;> simp [onFirst]
  fun_cases cut depth quote chars <;> simp [onFirst_ne_nil]

theorem isOpen_none : IsOpen none := by simp [IsOpen]

/-- Inside of quotes only the closing quote counts. -/
theorem cut_open {c : Char} (noEscape : c ≠ '\\') (depth : Nat) (mark : Char) (rest : List Char) :
    cut depth (some mark) (c :: rest) = onFirst [c] (cut depth (if c == mark then none else some mark) rest) :=
  cut.eq_4 depth c rest mark (fun same _ => noEscape same) fun _ _ same _ => noEscape same

/-- Outside of quotes a quote opens one, brackets are counted, and a comma outside of brackets ends the piece. -/
theorem cut_closed {c : Char} (noEscape : c ≠ '\\') (depth : Nat) (rest : List Char) :
    cut depth none (c :: rest) =
      if c == '"' || c == '\'' then onFirst [c] (cut depth (some c) rest)
      else if c == '(' || c == '[' then onFirst [c] (cut (depth + 1) none rest)
      else if c == ')' || c == ']' then onFirst [c] (cut (depth - 1) none rest)
      else if c == ',' && depth == 0 then [] :: cut 0 none rest
      else onFirst [c] (cut depth none rest) :=
  cut.eq_5 depth c rest (fun same _ => noEscape same) fun _ _ same _ => noEscape same

/-- The pieces with the commas between them are the text that was cut. -/
theorem intercalate_cut (depth : Nat) (quote : Option Char) (chars : List Char) :
    [','].intercalate (cut depth quote chars) = chars := by
  fun_induction cut depth quote chars with
  | case1 => rfl
  | case2 => rfl
  | case8 depth c rest _ _ _ _ _ ends ih =>
    -- The one case in which a piece ends.
    simp only [Bool.and_eq_true, beq_iff_eq] at ends
    rw [List.intercalate_cons_of_ne_nil (cut_ne_nil 0 none rest), ih, ends.1]
    rfl
  | _ => simp only [intercalate_onFirst, *]; rfl

/-- What one character does to the depth and the quote, and whether it ends the item, is the same
whatever follows. -/
theorem cut_cons {c : Char} (noEscape : c ≠ '\\') {quote : Option Char} (isOpen : IsOpen quote) (depth : Nat) :
    ∃ depthAfter quoteAfter, IsOpen quoteAfter ∧
      ((∀ rest, cut depth quote (c :: rest) = onFirst [c] (cut depthAfter quoteAfter rest)) ∨
        ∀ rest, cut depth quote (c :: rest) = [] :: cut depthAfter quoteAfter rest) := by
  cases quote with
  | some mark =>
    refine ⟨depth, if c == mark then none else some mark, ?_, .inl (cut_open noEscape depth mark)⟩
    split
    · exact isOpen_none
    · exact isOpen
  | none =>
    simp only [cut_closed noEscape]
    by_cases quotes : (c == '"' || c == '\'') = true
    · exact ⟨depth, some c, by simpa [IsOpen] using quotes, .inl fun rest => by rw [if_pos quotes]⟩
    by_cases opens : (c == '(' || c == '[') = true
    · exact ⟨depth + 1, none, isOpen_none, .inl fun rest => by rw [if_neg quotes, if_pos opens]⟩
    by_cases closes : (c == ')' || c == ']') = true
    · exact ⟨depth - 1, none, isOpen_none, .inl fun rest => by rw [if_neg quotes, if_neg opens, if_pos closes]⟩
    by_cases ends : (c == ',' && depth == 0) = true
    · exact ⟨0, none, isOpen_none, .inr fun rest => by
        rw [if_neg quotes, if_neg opens, if_neg closes, if_pos ends]⟩
    · exact ⟨depth, none, isOpen_none, .inl fun rest => by
        rw [if_neg quotes, if_neg opens, if_neg closes, if_neg ends]⟩

end NestedCss.Selector
