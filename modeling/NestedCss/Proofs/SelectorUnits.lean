import NestedCss.Rule.Selector

namespace NestedCss.Selector

/-- Texts are read from the front in the way that all scanners of selectors read them. -/
@[elab_as_elim]
theorem unit_induction {motive : List Char → Prop} (nil : motive []) (dangling : motive ['\\'])
    (pair : ∀ c rest, motive rest → motive ('\\' :: c :: rest))
    (single : ∀ c rest, c ≠ '\\' → motive rest → motive (c :: rest)) (chars : List Char) : motive chars := by
  induction chars using mentionsParent.induct with
  | case1 => exact nil
  | case2 => exact dangling
  | case3 c rest ih => exact pair c rest ih
  | case4 c rest noEnd noPair ih =>
    refine single c rest (fun escape => ?_) ih
    cases rest with
    | nil => exact noEnd escape rfl
    | cons next others => exact noPair next others escape rfl

/-- The text consists of backslash pairs and of other characters, all of which are allowed. -/
inductive Units (allowed : Char → Prop) : List Char → Prop
  | nil : Units allowed []
  | pair (c : Char) {rest : List Char} : Units allowed rest → Units allowed ('\\' :: c :: rest)
  | single {c : Char} {rest : List Char} : c ≠ '\\' → allowed c → Units allowed rest → Units allowed (c :: rest)

/-- No backslash is left without a character behind it. -/
abbrev Whole : List Char → Prop := Units fun _ => True

/-- The text has no placeholder outside backslash pairs either. -/
abbrev Literal : List Char → Prop := Units (· ≠ '&')

section Units
variable {allowed : Char → Prop} {s t : List Char}

/-- Behind a whole unit the next text is read from its start. -/
theorem Units.append (first : Units allowed s) (second : Units allowed t) : Units allowed (s ++ t) := by
  induction first with
  | nil => exact second
  | pair c _ ih => exact .pair c ih
  | single noEscape fine _ ih => exact .single noEscape fine ih

theorem Units.of_forall (plain : ∀ c ∈ s, c ≠ '\\' ∧ allowed c) : Units allowed s := by
  induction s with
  | nil => exact .nil
  | cons c rest ih =>
    rw [List.forall_mem_cons] at plain
    exact .single plain.1.1 plain.1.2 (ih plain.2)

theorem Units.whole (units : Units allowed s) : Whole s := by
  induction units with
  | nil => exact .nil
  | pair c _ ih => exact .pair c ih
  | single noEscape _ _ ih => exact .single noEscape trivial ih

theorem units_pair_iff {c : Char} {rest : List Char} : Units allowed ('\\' :: c :: rest) ↔ Units allowed rest := by
  refine ⟨fun units => ?_, .pair c⟩
  cases units with
  | pair _ units => exact units
  | single noEscape => exact absurd rfl noEscape

theorem units_single_iff {c : Char} (noEscape : c ≠ '\\') {rest : List Char} :
    Units allowed (c :: rest) ↔ allowed c ∧ Units allowed rest := by
  refine ⟨fun units => ?_, fun ⟨fine, units⟩ => .single noEscape fine units⟩
  cases units with
  | pair => exact absurd rfl noEscape
  | single _ fine units => exact ⟨fine, units⟩

theorem not_units_backslash : ¬ Units allowed ['\\'] := by
  intro units
  cases units with
  | single noEscape => exact noEscape rfl

/-- Reads a text unit by unit, and finds out whether all other characters are allowed. -/
def readUnits (allowed : Char → Prop) [DecidablePred allowed] : List Char → Bool
  | [] => true
  | ['\\'] => false
  | '\\' :: _ :: rest => readUnits allowed rest
  | c :: rest => allowed c && readUnits allowed rest

/-- Reading decides whether a text consists of such units. -/
theorem readUnits_iff [DecidablePred allowed] (s : List Char) : readUnits allowed s = true ↔ Units allowed s := by
  induction s using unit_induction with
  | nil => exact iff_of_true rfl .nil
  | dangling => exact iff_of_false Bool.false_ne_true not_units_backslash
  | pair c rest ih => exact ih.trans units_pair_iff.symm
  | single c rest noEscape ih =>
    have reads : readUnits allowed (c :: rest) = (allowed c && readUnits allowed rest) :=
      readUnits.eq_4 allowed c rest (fun same _ => noEscape same) fun _ _ same _ => noEscape same
    rw [reads, Bool.and_eq_true, decide_eq_true_iff, ih, units_single_iff noEscape]

instance [DecidablePred allowed] : DecidablePred (Units allowed) := fun s => decidable_of_iff _ (readUnits_iff s)

/-- Behind a whole text a backslash is paired as it would be at the start. -/
theorem Whole.append_iff (whole : Whole s) : Whole (s ++ t) ↔ Whole t := by
  induction whole with
  | nil => rfl
  | pair c _ ih => exact units_pair_iff.trans ih
  | single noEscape _ _ ih => exact ((units_single_iff noEscape).trans (and_iff_right trivial)).trans ih

/-- A text that is whole only by what stands behind it ends in a backslash. -/
theorem Whole.left_or_dangling (whole : Whole (s ++ t)) :
    Whole s ∨ ∃ front c rest, s = front ++ ['\\'] ∧ t = c :: rest ∧ Whole front := by
  induction s using unit_induction with
  | nil => exact .inl .nil
  | dangling =>
    cases t with
    | nil => exact absurd whole not_units_backslash
    | cons c rest => exact .inr ⟨[], c, rest, rfl, rfl, .nil⟩
  | pair c s ih =>
    rcases ih (units_pair_iff.mp whole) with left | ⟨front, next, rest, rfl, behind, left⟩
    · exact .inl (.pair c left)
    · exact .inr ⟨'\\' :: c :: front, next, rest, rfl, behind, .pair c left⟩
  | single c s noEscape ih =>
    rcases ih ((units_single_iff noEscape).mp whole).2 with left | ⟨front, next, rest, rfl, behind, left⟩
    · exact .inl (.single noEscape trivial left)
    · exact .inr ⟨c :: front, next, rest, rfl, behind, .single noEscape trivial left⟩

end Units

theorem mentionsParent_cons {c : Char} (noEscape : c ≠ '\\') (rest : List Char) :
    mentionsParent (c :: rest) = (c == '&' || mentionsParent rest) :=
  mentionsParent.eq_4 c rest (fun same _ => noEscape same) fun _ _ same _ => noEscape same

theorem fill_cons {c : Char} (noEscape : c ≠ '\\') (selector rest : List Char) :
    fill selector (c :: rest) = if c == '&' then selector ++ fill selector rest else c :: fill selector rest :=
  fill.eq_4 selector c rest (fun same _ => noEscape same) fun _ _ same _ => noEscape same

/-- Placeholders can be looked for on either side of a place between two units. -/
theorem Whole.mentionsParent_append {s : List Char} (whole : Whole s) (t : List Char) :
    mentionsParent (s ++ t) = (mentionsParent s || mentionsParent t) := by
  induction whole with
  | nil => rfl
  | pair c _ ih => exact ih
  | single noEscape _ _ ih =>
    rw [List.cons_append, mentionsParent_cons noEscape, mentionsParent_cons noEscape, ih, Bool.or_assoc]

theorem Whole.fill_append {s : List Char} (whole : Whole s) (selector t : List Char) :
    fill selector (s ++ t) = fill selector s ++ fill selector t := by
  induction whole with
  | nil => rfl
  | pair c _ ih => exact congrArg (fun rest => '\\' :: c :: rest) ih
  | single noEscape _ _ ih =>
    rw [List.cons_append, fill_cons noEscape, fill_cons noEscape, ih]
    split <;> simp

theorem Literal.of_blank {space : List Char} (blank : Blank.AllBlank space) : Literal space := by
  refine Units.of_forall fun c inside => ?_
  have here := blank c inside
  constructor <;> rintro rfl <;> exact absurd here (by decide)

theorem Literal.fill_eq {s : List Char} (literal : Literal s) (selector : List Char) : fill selector s = s := by
  induction literal with
  | nil => rfl
  | pair c _ ih => exact congrArg (fun rest => '\\' :: c :: rest) ih
  | single noEscape noParent _ ih => rw [fill_cons noEscape, if_neg (by simpa using noParent), ih]

theorem Literal.mentionsParent_eq {s : List Char} (literal : Literal s) : mentionsParent s = false := by
  induction literal with
  | nil => rfl
  | pair c _ ih => exact ih
  | single noEscape noParent _ ih => simp [mentionsParent_cons noEscape, noParent, ih]

/-- A pattern taken apart at the placeholders outside its backslash pairs. Only the last segment can end in
a backslash. -/
inductive Divides : List Char → List (List Char) → Prop
  | last {text : List Char} : Literal text → Divides text [text]
  | dangling {text : List Char} : Literal text → Divides (text ++ ['\\']) [text ++ ['\\']]
  | parent {text rest : List Char} {segments : List (List Char)} : Literal text → Divides rest segments →
      Divides (text ++ '&' :: rest) (text :: segments)

namespace Divides
variable {pattern : List Char} {segments : List (List Char)}

theorem onFirst {front : List Char} (literal : Literal front) (divides : Divides pattern segments) :
    Divides (front ++ pattern) (Selector.onFirst front segments) := by
  cases divides with
  | last text => exact .last (literal.append text)
  | @dangling text own =>
    have whole := Divides.dangling (literal.append own)
    rw [List.append_assoc] at whole
    exact whole
  | parent text rest =>
    rw [← List.append_assoc]
    exact .parent (literal.append text) rest

/-- Every pattern can be taken apart at its placeholders. -/
theorem exists_segments (pattern : List Char) : ∃ segments, Divides pattern segments := by
  induction pattern using unit_induction with
  | nil => exact ⟨_, .last .nil⟩
  | dangling => exact ⟨_, .dangling .nil⟩
  | pair c rest ih =>
    obtain ⟨segments, divides⟩ := ih
    exact ⟨_, divides.onFirst (.pair c .nil)⟩
  | single c rest noEscape ih =>
    obtain ⟨segments, divides⟩ := ih
    by_cases parent : c = '&'
    · subst parent
      exact ⟨_, .parent .nil divides⟩
    · exact ⟨_, divides.onFirst (.single noEscape parent .nil)⟩

theorem ne_nil (divides : Divides pattern segments) : segments ≠ [] := by
  cases divides <;> simp

/-- Filling a pattern puts the selector between its segments. -/
theorem fill_eq (divides : Divides pattern segments) (selector : List Char) :
    fill selector pattern = selector.intercalate segments := by
  induction divides with
  | last text => rw [text.fill_eq, List.intercalate_singleton]
  | dangling text =>
    rw [text.whole.fill_append, text.fill_eq, List.intercalate_singleton]
    rfl
  | parent text rest ih =>
    rw [text.whole.fill_append, text.fill_eq, fill_cons (by decide), if_pos (by decide), ih,
      List.intercalate_cons_of_ne_nil rest.ne_nil, List.append_assoc]

/-- A pattern has a placeholder exactly if it comes apart. -/
theorem mentionsParent_iff (divides : Divides pattern segments) :
    mentionsParent pattern = true ↔ segments.length ≠ 1 := by
  cases divides with
  | last text => simp [text.mentionsParent_eq]
  | dangling text => simp [text.whole.mentionsParent_append, text.mentionsParent_eq, mentionsParent]
  | parent text rest => simp [text.whole.mentionsParent_append, mentionsParent_cons, rest.ne_nil]

end Divides

end NestedCss.Selector
