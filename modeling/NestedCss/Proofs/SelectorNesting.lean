import NestedCss.Proofs.SelectorLists

namespace NestedCss.Selector

/-- No placeholder outside backslash pairs is inside a quote. -/
def Unquoted (depth : Nat) (quote : Option Char) (chars : List Char) : Prop :=
  ∀ before after depthHere quoteHere, chars = before ++ '&' :: after →
    Passes depth quote before depthHere quoteHere → quoteHere = none

section Unquoted
variable {depth depthNext : Nat} {quote quoteNext : Option Char} {c : Char} {rest : List Char}

theorem unquoted_nil : Unquoted depth quote [] := by
  intro before after _ _ same
  simp at same

theorem unquoted_pair_iff : Unquoted depth quote ('\\' :: c :: rest) ↔ Unquoted depth quote rest := by
  constructor
  · intro unquoted before after _ _ same passes
    exact unquoted ('\\' :: c :: before) after _ _ (by rw [same]; rfl) (.pair c passes)
  · intro unquoted before after _ _ same passes
    cases passes with
    | nil => cases same
    | pair _ passes =>
      cases same
      exact unquoted _ after _ _ rfl passes
    | single noEscape => exact absurd (List.cons.inj same).1.symm noEscape

theorem unquoted_single_iff (noEscape : c ≠ '\\') (turns : turn depth quote c = some (depthNext, quoteNext)) :
    Unquoted depth quote (c :: rest) ↔ (c = '&' → quote = none) ∧ Unquoted depthNext quoteNext rest := by
  constructor
  · intro unquoted
    refine ⟨fun parent => unquoted [] rest depth quote (by rw [parent]; rfl) .nil, ?_⟩
    intro before after _ _ same passes
    exact unquoted (c :: before) after _ _ (by rw [same]; rfl) (.single noEscape turns passes)
  · rintro ⟨here, later⟩ before after _ _ same passes
    cases passes with
    | nil =>
      cases same
      exact here rfl
    | pair => exact absurd (List.cons.inj same).1 noEscape
    | single _ turned passes =>
      cases same
      cases turns.symm.trans turned
      exact later _ after _ _ rfl passes

/-- Where a character leads nowhere, nothing that stands behind it is reached. -/
theorem unquoted_stuck_iff (noEscape : c ≠ '\\') (stuck : turn depth quote c = none) :
    Unquoted depth quote (c :: rest) ↔ (c = '&' → quote = none) := by
  refine ⟨fun unquoted parent => unquoted [] rest depth quote (by rw [parent]; rfl) .nil, ?_⟩
  intro here before after _ _ same passes
  cases passes with
  | nil =>
    cases same
    exact here rfl
  | pair => exact absurd (List.cons.inj same).1 noEscape
  | single _ turned =>
    cases same
    cases stuck.symm.trans turned

/-- Reads a text as far as it leads somewhere, and finds out whether its placeholders are outside of quotes. -/
def showsParents (depth : Nat) (quote : Option Char) : List Char → Bool
  | [] => true
  | ['\\'] => true
  | '\\' :: _ :: rest => showsParents depth quote rest
  | c :: rest =>
    (c != '&' || quote == none) &&
      match turn depth quote c with
      | none => true
      | some (depthNext, quoteNext) => showsParents depthNext quoteNext rest

/-- Reading decides whether all placeholders that are reached are outside of quotes. -/
theorem showsParents_iff {chars : List Char} : showsParents depth quote chars = true ↔ Unquoted depth quote chars := by
  induction chars using unit_induction generalizing depth quote with
  | nil => exact iff_of_true rfl unquoted_nil
  | dangling =>
    refine iff_of_true rfl fun before after _ _ same _ => ?_
    have inside : '&' ∈ ['\\'] := by simp [same]
    exact absurd inside (by decide)
  | pair c rest ih => exact ih.trans unquoted_pair_iff.symm
  | single c rest noEscape ih =>
    rw [showsParents.eq_4 depth quote c rest (fun same _ => noEscape same) fun _ _ same _ => noEscape same,
      Bool.and_eq_true]
    have here : (c != '&' || quote == none) = true ↔ (c = '&' → quote = none) := by
      simp [Decidable.imp_iff_not_or]
    cases turns : turn depth quote c with
    | none => simpa [unquoted_stuck_iff noEscape turns] using here
    | some next =>
      rw [unquoted_single_iff noEscape turns, here]
      exact and_congr_right' ih

instance : DecidablePred (Unquoted depth quote) := fun _ => decidable_of_iff _ showsParents_iff

end Unquoted

/-- A closed selector in place of placeholders changes nothing in what stands around them. -/
theorem Passes.fill {item s : List Char} {depth depthAfter : Nat} {quote quoteAfter : Option Char}
    (closed : Passes 0 none item 0 none) (passes : Passes depth quote s depthAfter quoteAfter)
    (unquoted : Unquoted depth quote s) : Passes depth quote (fill item s) depthAfter quoteAfter := by
  induction passes with
  | nil => exact .nil
  | pair c _ ih => exact .pair c (ih (unquoted_pair_iff.mp unquoted))
  | @single c depth quote _ _ _ _ _ noEscape turns _ ih =>
    obtain ⟨unhidden, unquoted⟩ := (unquoted_single_iff noEscape turns).mp unquoted
    rw [fill_cons noEscape]
    by_cases parent : c = '&'
    · subst parent
      obtain rfl := unhidden rfl
      cases turns
      have inside := closed.raise depth
      rw [Nat.zero_add] at inside
      exact inside.append (ih unquoted)
    · rw [if_neg (by simpa using parent)]
      exact .single noEscape turns (ih unquoted)

section Ends
variable {item s : List Char}

/-- What a compound selector is filled with begins with no whitespace, for neither the pattern nor the selector
does. -/
theorem head?_fill (compound : IsCompound item) (first : ∀ c ∈ s.head?, Blank.isBlank c = false) :
    ∀ c ∈ (fill item s).head?, Blank.isBlank c = false := by
  cases s with
  | nil => simp [fill]
  | cons c rest =>
    by_cases escape : c = '\\'
    · subst escape
      cases rest <;> simpa [fill] using first
    · rw [fill_cons escape]
      split
      · simpa [compound.ne_nil] using compound.first
      · simpa using first

theorem getLast?_fill (compound : IsCompound item) (whole : Whole s)
    (last : ∀ c ∈ s.getLast?, Blank.isBlank c = false) : ∀ c ∈ (fill item s).getLast?, Blank.isBlank c = false := by
  rcases List.eq_nil_or_concat s with rfl | ⟨front, c, rfl⟩
  · simp [fill]
  rw [List.concat_eq_append] at whole last ⊢
  -- The last character is a unit of its own, or the second one of a backslash pair, which stays.
  rcases whole.left_or_dangling with left | ⟨front, _, _, rfl, same, left⟩
  · have noEscape : c ≠ '\\' := by
      rintro rfl
      exact not_units_backslash (left.append_iff.mp whole)
    rw [left.fill_append, fill_cons noEscape]
    split
    · simpa [fill, compound.ne_nil] using compound.last
    · simpa [fill] using last
  · cases same
    rw [List.append_assoc, left.fill_append]
    simpa [fill] using last

theorem fill_ne_nil (compound : IsCompound item) (notEmpty : s ≠ []) : fill item s ≠ [] := by
  cases s with
  | nil => exact absurd rfl notEmpty
  | cons c rest =>
    by_cases escape : c = '\\'
    · subst escape
      cases rest <;> simp [fill]
    · rw [fill_cons escape]
      split <;> simp [compound.ne_nil]

/-- A compound pattern that is filled with a compound selector is compound again. -/
theorem IsCompound.fill (compound : IsCompound item) (pattern : IsCompound s) (unquoted : Unquoted 0 none s) :
    IsCompound (Selector.fill item s) where
  passes := compound.passes.fill pattern.passes unquoted
  ne_nil := fill_ne_nil compound pattern.ne_nil
  first := head?_fill compound pattern.first
  last := getLast?_fill compound pattern.passes.whole pattern.last

end Ends

theorem Piece.fill {item text : List Char} {items : List (List Char)} (compound : IsCompound item)
    (piece : Piece text items) (unquoted : ∀ other ∈ items, Unquoted 0 none other) :
    Piece (fill item text) (items.map (fill item)) := by
  cases piece with
  | blank space =>
    rw [(Literal.of_blank space).fill_eq]
    exact .blank space
  | item before other after =>
    rw [List.append_assoc, (Literal.of_blank before).whole.fill_append, other.passes.whole.fill_append,
      (Literal.of_blank before).fill_eq, (Literal.of_blank after).fill_eq, ← List.append_assoc]
    exact .item before (compound.fill other (unquoted _ (List.mem_singleton_self _))) after

namespace Lists
variable {text rest : List Char} {items others : List (List Char)}

theorem append (first : Lists text items) (second : Lists rest others) :
    Lists (text ++ ',' :: rest) (items ++ others) := by
  induction first with
  | last piece => exact .next piece second
  | next piece _ ih =>
    rw [List.append_assoc, List.append_assoc]
    exact .next piece ih

theorem space (lists : Lists text items) : Lists (' ' :: text) items := by
  have wider {text : List Char} {items : List (List Char)} (piece : Piece text items) : Piece (' ' :: text) items := by
    cases piece with
    | blank space => exact .blank (List.forall_mem_cons.mpr ⟨rfl, space⟩)
    | item before compound after => exact .item (List.forall_mem_cons.mpr ⟨rfl, before⟩) compound after
  cases lists with
  | last piece => exact .last (wider piece)
  | next piece later => exact .next (wider piece) later

theorem item_compound (lists : Lists text items) : ∀ item ∈ items, IsCompound item := by
  have here {text : List Char} {items : List (List Char)} (piece : Piece text items) :
      ∀ item ∈ items, IsCompound item := by
    cases piece with
    | blank => simp
    | item _ compound => simpa using compound
  induction lists with
  | last piece => exact here piece
  | next piece _ ih =>
    intro item inside
    exact (List.mem_append.mp inside).elim (here piece item) (ih item)

theorem fill {item : List Char} (compound : IsCompound item) (lists : Lists text items)
    (unquoted : ∀ other ∈ items, Unquoted 0 none other) : Lists (fill item text) (items.map (fill item)) := by
  induction lists with
  | last piece => exact .last (piece.fill compound unquoted)
  | next piece _ ih =>
    rw [List.forall_mem_append] at unquoted
    rw [piece.passes.whole.fill_append, fill_cons (by decide), if_neg (by decide), List.map_append]
    exact .next (piece.fill compound unquoted.1) (ih unquoted.2)

theorem mentionsParent_eq (lists : Lists text items) : mentionsParent text = items.any mentionsParent := by
  have here {text : List Char} {items : List (List Char)} (piece : Piece text items) :
      mentionsParent text = items.any mentionsParent := by
    cases piece with
    | blank space => exact (Literal.of_blank space).mentionsParent_eq
    | item before compound after =>
      rw [List.append_assoc, (Literal.of_blank before).whole.mentionsParent_append,
        compound.passes.whole.mentionsParent_append, (Literal.of_blank before).mentionsParent_eq,
        (Literal.of_blank after).mentionsParent_eq]
      simp
  induction lists with
  | last piece => exact here piece
  | next piece _ ih =>
    rw [piece.passes.whole.mentionsParent_append, mentionsParent_cons (by decide), here piece, ih, List.any_append]
    rfl

/-- Lists that are written one behind the other are one list of all their items. -/
theorem flatMap {written : List Char → List Char} {parts : List Char → List (List Char)}
    (each : ∀ item ∈ items, Lists (written item) (parts item)) (notEmpty : items ≠ []) :
    Lists ([',', ' '].intercalate (items.map written)) (items.flatMap parts) := by
  induction items with
  | nil => exact absurd rfl notEmpty
  | cons item others ih =>
    rw [List.forall_mem_cons] at each
    by_cases more : others = []
    · subst more
      simpa using each.1
    · rw [List.map_cons, List.intercalate_cons_of_ne_nil (by simpa using more), List.flatMap_cons, List.append_assoc]
      exact each.1.append (ih each.2 more).space

end Lists

section Filling

/-- A character that is neither a backslash nor a placeholder separates what is filled on either side of it,
also behind a backslash. -/
theorem fill_append_cons {c : Char} (noEscape : c ≠ '\\') (noParent : c ≠ '&') (item before after : List Char) :
    fill item (before ++ c :: after) = fill item before ++ c :: fill item after := by
  induction before using unit_induction with
  | nil => rw [List.nil_append, fill_cons noEscape, if_neg (by simpa using noParent)]; rfl
  | dangling => rfl
  | pair next rest ih => exact congrArg (fun text => '\\' :: next :: text) ih
  | single next rest nextNoEscape ih =>
    rw [List.cons_append, fill_cons nextNoEscape, fill_cons nextNoEscape, ih]
    split <;> simp

theorem mentionsParent_append_cons {c : Char} (noEscape : c ≠ '\\') (noParent : c ≠ '&') (before after : List Char) :
    mentionsParent (before ++ c :: after) = (mentionsParent before || mentionsParent after) := by
  induction before using unit_induction with
  | nil => rw [List.nil_append, mentionsParent_cons noEscape]; simp [noParent, mentionsParent]
  | dangling => rfl
  | pair next rest ih => exact ih
  | single next rest nextNoEscape ih =>
    rw [List.cons_append, mentionsParent_cons nextNoEscape, mentionsParent_cons nextNoEscape, ih, Bool.or_assoc]

/-- A joined list is filled item by item, for neither a comma nor a space is a placeholder. -/
theorem fill_intercalate (item : List Char) (texts : List (List Char)) :
    fill item ([',', ' '].intercalate texts) = [',', ' '].intercalate (texts.map (fill item)) := by
  induction texts with
  | nil => rfl
  | cons text others ih =>
    by_cases more : others = []
    · simp [more]
    · rw [List.intercalate_cons_of_ne_nil more, List.map_cons,
        List.intercalate_cons_of_ne_nil (by simpa using more), ← ih, List.append_assoc, List.append_assoc]
      exact fill_append_cons (by decide) (by decide) item text (' ' :: [',', ' '].intercalate others)

theorem mentionsParent_intercalate (texts : List (List Char)) :
    mentionsParent ([',', ' '].intercalate texts) = texts.any mentionsParent := by
  induction texts with
  | nil => rfl
  | cons text others ih =>
    by_cases more : others = []
    · simp [more]
    · rw [List.intercalate_cons_of_ne_nil more, List.any_cons, ← ih, List.append_assoc]
      exact mentionsParent_append_cons (by decide) (by decide) text (' ' :: [',', ' '].intercalate others)

/-- A pattern that is filled twice can be filled once, with the inner selector filled first. The inner selector
has to be whole, or its last backslash would take hold of the pattern. -/
theorem fill_fill {inner : List Char} (whole : Whole inner) (outer pattern : List Char) :
    fill outer (fill inner pattern) = fill (fill outer inner) pattern := by
  induction pattern using unit_induction with
  | nil => rfl
  | dangling => rfl
  | pair c rest ih => exact congrArg (fun text => '\\' :: c :: text) ih
  | single c rest noEscape ih =>
    rw [fill_cons noEscape, fill_cons noEscape]
    by_cases parent : (c == '&') = true
    · rw [if_pos parent, if_pos parent, whole.fill_append, ih]
    · rw [if_neg parent, if_neg parent, fill_cons noEscape, if_neg parent, ih]

theorem mentionsParent_fill {item : List Char} (whole : Whole item) (pattern : List Char) :
    mentionsParent (fill item pattern) = (mentionsParent pattern && mentionsParent item) := by
  induction pattern using unit_induction with
  | nil => rfl
  | dangling => rfl
  | pair c rest ih => exact ih
  | single c rest noEscape ih =>
    rw [fill_cons noEscape, mentionsParent_cons noEscape]
    by_cases parent : (c == '&') = true
    · rw [if_pos parent, whole.mentionsParent_append, ih, parent]
      cases mentionsParent item <;> simp
    · rw [if_neg parent, mentionsParent_cons noEscape, ih, Bool.eq_false_iff.mpr parent]
      rfl

end Filling

theorem nest_of_not_mentioned (parent : String) {pattern : String} (plain : mentionsParent pattern.toList = false) :
    nest parent pattern = pattern := by
  rw [nest, plain]
  rfl

/-- A pattern with a placeholder is written once for each item of the parent. -/
theorem nest_lists {parent pattern : String} {items : List (List Char)} (lists : Lists parent.toList items)
    (notEmpty : items ≠ []) (mentions : mentionsParent pattern.toList = true) :
    nest parent pattern = ", ".intercalate (items.map fun item => String.ofList (fill item pattern.toList)) := by
  rw [nest, if_pos mentions, lists.parents_eq notEmpty]

theorem toList_nest_lists {parent pattern : String} {items : List (List Char)} (lists : Lists parent.toList items)
    (notEmpty : items ≠ []) (mentions : mentionsParent pattern.toList = true) :
    (nest parent pattern).toList = [',', ' '].intercalate (items.map fun item => fill item pattern.toList) := by
  rw [nest_lists lists notEmpty mentions, String.toList_intercalate, List.map_map]
  simp [Function.comp_def]

theorem intercalate_flatMap {α : Type} (separator : String) (list : List α) {parts : α → List String}
    (notEmpty : ∀ a, parts a ≠ []) :
    separator.intercalate (list.flatMap parts) =
      separator.intercalate (list.map fun a => separator.intercalate (parts a)) := by
  induction list with
  | nil => rfl
  | cons a rest ih =>
    by_cases more : rest = []
    · simp [more]
    · have later : rest.flatMap parts ≠ [] := by simpa [notEmpty] using List.exists_mem_of_ne_nil rest more
      rw [List.flatMap_cons, String.intercalate_append_of_ne_nil (notEmpty a) later, ih, List.map_cons,
        String.intercalate_cons_of_ne_nil (by simpa using more)]

theorem mentionsParent_nest {parent pattern : String} {items : List (List Char)} (lists : Lists parent.toList items)
    (notEmpty : items ≠ []) (mentions : mentionsParent pattern.toList = true) :
    mentionsParent (nest parent pattern).toList = mentionsParent parent.toList := by
  have each : items.map (fun item => mentionsParent (fill item pattern.toList)) = items.map mentionsParent := by
    refine List.map_congr_left fun item inside => ?_
    rw [mentionsParent_fill (lists.item_compound item inside).passes.whole, mentions, Bool.true_and]
  have some := congrArg (List.any · id) each
  rw [toList_nest_lists lists notEmpty mentions, mentionsParent_intercalate, lists.mentionsParent_eq]
  simpa [List.any_map, Function.comp_def] using some

/-- The selector of a block in a block in a third one can be composed from the outside and from the inside. -/
theorem nest_assoc {parent pattern : String} {outer inner : List (List Char)} (parents : Lists parent.toList outer)
    (someParent : outer ≠ []) (patterns : Lists pattern.toList inner) (somePattern : inner ≠ [])
    (unquoted : ∀ item ∈ inner, Unquoted 0 none item) (last : String) :
    nest (nest parent pattern) last = nest parent (nest pattern last) := by
  by_cases lastMentions : mentionsParent last.toList = true
  case neg =>
    have plain := Bool.eq_false_iff.mpr lastMentions
    rw [nest_of_not_mentioned _ plain, nest_of_not_mentioned _ plain, nest_of_not_mentioned _ plain]
  -- From here on the innermost pattern is filled on either side, and the middle one decides what with.
  have composed := mentionsParent_nest patterns somePattern lastMentions
  by_cases mentions : mentionsParent pattern.toList = true
  case neg =>
    have plain := Bool.eq_false_iff.mpr mentions
    rw [nest_of_not_mentioned _ plain, nest_of_not_mentioned _ (composed.trans plain)]
  have filled : Lists (nest parent pattern).toList (outer.flatMap fun item => inner.map (fill item)) := by
    rw [toList_nest_lists parents someParent mentions]
    exact .flatMap (fun item inside => patterns.fill (parents.item_compound item inside) unquoted) someParent
  have someFilled : (outer.flatMap fun item => inner.map (fill item)) ≠ [] := by
    simpa [somePattern] using List.exists_mem_of_ne_nil outer someParent
  rw [nest_lists filled someFilled lastMentions, nest_lists parents someParent (composed.trans mentions),
    List.map_flatMap, intercalate_flatMap _ _ (by simpa using somePattern)]
  refine congrArg _ (List.map_congr_left fun item _ => String.toList_inj.mp ?_)
  rw [String.toList_ofList, toList_nest_lists patterns somePattern lastMentions, fill_intercalate,
    String.toList_intercalate, List.map_map, List.map_map, List.map_map]
  refine congrArg _ (List.map_congr_left fun other inside => ?_)
  have whole := (patterns.item_compound other inside).passes.whole
  simp only [Function.comp_apply, String.toList_ofList, fill_fill whole]

/-- The block in the middle has two selectors, of which one mentions its parent behind a quote and one behind
an escaped placeholder. -/
theorem nest_assoc_quoted :
    ∃ outer inner, Lists ".a, :is(b,c)".toList outer ∧ outer ≠ [] ∧ Lists "[x=\"y,\"]&,\\&&".toList inner ∧
      inner ≠ [] ∧ (∀ item ∈ inner, Unquoted 0 none item) ∧
      nest (nest ".a, :is(b,c)" "[x=\"y,\"]&,\\&&") "& > &" = nest ".a, :is(b,c)" (nest "[x=\"y,\"]&,\\&&" "& > &") := by
  obtain ⟨plain, choice, quoted, escaped⟩ : IsCompound ".a".toList ∧ IsCompound ":is(b,c)".toList ∧
      IsCompound "[x=\"y,\"]&".toList ∧ IsCompound "\\&&".toList := by decide
  have unquoted : ∀ item ∈ ["[x=\"y,\"]&".toList, "\\&&".toList], Unquoted 0 none item := by decide
  have parents : Lists ".a, :is(b,c)".toList [".a".toList, ":is(b,c)".toList] :=
    .next plain.piece (Lists.last choice.piece).space
  have patterns : Lists "[x=\"y,\"]&,\\&&".toList ["[x=\"y,\"]&".toList, "\\&&".toList] :=
    .next quoted.piece (.last escaped.piece)
  exact ⟨_, _, parents, by decide, patterns, by decide, unquoted,
    nest_assoc parents (by decide) patterns (by decide) unquoted "& > &"⟩

end NestedCss.Selector
