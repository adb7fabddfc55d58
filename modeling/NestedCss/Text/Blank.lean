namespace NestedCss.Blank

/-- ASCII whitespace: space, tab, line feed, form feed and carriage return. -/
def isBlank (c : Char) : Bool :=
  c == ' ' || c == '\t' || c == '\n' || c == '\x0c' || c == '\x0d'

/-- Removes the whitespace at both ends. -/
def trim (chars : List Char) : List Char :=
  ((chars.dropWhile isBlank).reverse.dropWhile isBlank).reverse

/-- The text is whitespace throughout. -/
abbrev AllBlank (space : List Char) : Prop := ∀ c ∈ space, isBlank c

/-- Whitespace in front does not matter. -/
theorem trim_blank_append {space : List Char} (blank : AllBlank space) (chars : List Char) :
    trim (space ++ chars) = trim chars := by
  rw [trim, List.dropWhile_append_of_pos blank, trim]

/-- Whitespace behind does not matter. -/
theorem trim_append_blank {space : List Char} (blank : AllBlank space) (chars : List Char) :
    trim (chars ++ space) = trim chars := by
  have backwards : AllBlank space.reverse := fun c inside => blank c (List.mem_reverse.mp inside)
  simp only [trim, List.dropWhile_append]
  split
  · rename_i nothing
    have gone : space.dropWhile isBlank = [] := by
      rw [← List.append_nil space, List.dropWhile_append_of_pos blank, List.dropWhile_nil]
    rw [gone, List.isEmpty_iff.mp nothing]
  · rw [List.reverse_append, List.dropWhile_append_of_pos backwards]

theorem trim_blank {space : List Char} (blank : AllBlank space) : trim space = [] := by
  rw [← List.append_nil space, trim_blank_append blank]
  rfl

/-- Nothing is removed between ends that are not blank. -/
theorem trim_eq_self {chars : List Char} (first : ∀ c ∈ chars.head?, isBlank c = false)
    (last : ∀ c ∈ chars.getLast?, isBlank c = false) : trim chars = chars := by
  have keeps : ∀ {list : List Char}, (∀ c ∈ list.head?, isBlank c = false) → list.dropWhile isBlank = list := by
    intro list bare
    cases list with
    | nil => rfl
    | cons c rest => rw [List.dropWhile_cons, if_neg (by simp [bare c rfl])]
  rw [trim, keeps first, keeps (by simpa using last), List.reverse_reverse]

/-- Only whitespace is removed. -/
theorem exists_trim (chars : List Char) : ∃ before after, AllBlank before ∧ AllBlank after ∧
    chars = before ++ trim chars ++ after := by
  have blanks : ∀ list : List Char, AllBlank (list.takeWhile isBlank) := fun _ =>
    List.all_eq_true.mp List.all_takeWhile
  refine ⟨chars.takeWhile isBlank, ((chars.dropWhile isBlank).reverse.takeWhile isBlank).reverse, blanks chars,
    fun c inside => blanks _ c (List.mem_reverse.mp inside), ?_⟩
  rw [trim, List.append_assoc, ← List.reverse_append, List.takeWhile_append_dropWhile, List.reverse_reverse,
    List.takeWhile_append_dropWhile]

end NestedCss.Blank
