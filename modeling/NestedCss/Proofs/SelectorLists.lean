import Mathlib.Tactic.SplitIfs
import NestedCss.Proofs.SelectorCuts
import NestedCss.Proofs.SelectorUnits

namespace NestedCss.Selector

/-- What a character that is not part of a backslash pair makes of the number of open brackets and of the
open quote. Nothing comes of a comma outside both, or of a bracket that closes none. -/
def turn (depth : Nat) (quote : Option Char) (c : Char) : Option (Nat × Option Char) :=
  match quote with
  | some mark => some (depth, if c == mark then none else some mark)
  | none =>
    if c == '"' || c == '\'' then some (depth, some c)
    else if c == '(' || c == '[' then some (depth + 1, none)
    else if c == ')' || c == ']' then if depth = 0 then none else some (depth - 1, none)
    else if c == ',' && depth == 0 then none
    else some (depth, none)

/-- The text leads from one number of open brackets and open quote to another, without an end of an item, a
bracket that closes none, or a backslash without a character behind it. -/
inductive Passes : Nat → Option Char → List Char → Nat → Option Char → Prop
  | nil {depth quote} : Passes depth quote [] depth quote
  | pair (c : Char) {depth quote rest depthAfter quoteAfter} : Passes depth quote rest depthAfter quoteAfter →
      Passes depth quote ('\\' :: c :: rest) depthAfter quoteAfter
  | single {c depth quote depthNext quoteNext rest depthAfter quoteAfter} : c ≠ '\\' →
      turn depth quote c = some (depthNext, quoteNext) → Passes depthNext quoteNext rest depthAfter quoteAfter →
      Passes depth quote (c :: rest) depthAfter quoteAfter

/-- Reads a text from a number of open brackets and an open quote to others. -/
def pass (depth : Nat) (quote : Option Char) : List Char → Option (Nat × Option Char)
  | [] => some (depth, quote)
  | ['\\'] => none
  | '\\' :: _ :: rest => pass depth quote rest
  | c :: rest =>
    match turn depth quote c with
    | none => none
    | some (depthNext, quoteNext) => pass depthNext quoteNext rest

theorem pass_cons {c : Char} (noEscape : c ≠ '\\') (depth : Nat) (quote : Option Char) (rest : List Char) :
    pass depth quote (c :: rest) = (turn depth quote c).bind fun next => pass next.1 next.2 rest := by
  rw [pass.eq_4 depth quote c rest (fun same _ => noEscape same) fun _ _ same _ => noEscape same]
  cases turn depth quote c <;> rfl

/-- Reading decides where a text leads. -/
theorem pass_eq_some_iff {depth depthAfter : Nat} {quote quoteAfter : Option Char} {chars : List Char} :
    pass depth quote chars = some (depthAfter, quoteAfter) ↔ Passes depth quote chars depthAfter quoteAfter := by
  induction chars using unit_induction generalizing depth quote with
  | nil =>
    constructor
    · rintro ⟨⟩
      exact .nil
    · rintro ⟨⟩
      rfl
  | dangling =>
    refine iff_of_false (by simp [pass]) fun passes => ?_
    cases passes with
    | single noEscape => exact noEscape rfl
  | pair c rest ih =>
    refine ih.trans ⟨.pair c, fun passes => ?_⟩
    cases passes with
    | pair _ passes => exact passes
    | single noEscape => exact absurd rfl noEscape
  | single c rest noEscape ih =>
    rw [pass_cons noEscape, Option.bind_eq_some_iff]
    constructor
    · rintro ⟨⟨depthNext, quoteNext⟩, turns, goesOn⟩
      exact .single noEscape turns (ih.mp goesOn)
    · intro passes
      cases passes with
      | pair => exact absurd rfl noEscape
      | single _ turns passes => exact ⟨_, turns, ih.mpr passes⟩

instance (depth : Nat) (quote : Option Char) (chars : List Char) (depthAfter : Nat) (quoteAfter : Option Char) :
    Decidable (Passes depth quote chars depthAfter quoteAfter) :=
  decidable_of_iff _ pass_eq_some_iff

/-- A compound selector: all brackets and quotes are closed, no comma stands outside of them, and the ends
are not blank. -/
structure IsCompound (chars : List Char) : Prop where
  passes : Passes 0 none chars 0 none
  ne_nil : chars ≠ []
  first : ∀ c ∈ chars.head?, Blank.isBlank c = false
  last : ∀ c ∈ chars.getLast?, Blank.isBlank c = false

instance : DecidablePred IsCompound := fun chars =>
  -- `first` and `last` as they are would be decided by trying every character there is.
  decidable_of_iff (Passes 0 none chars 0 none ∧ chars ≠ [] ∧ chars.head?.all (!Blank.isBlank ·) = true ∧
      chars.getLast?.all (!Blank.isBlank ·) = true) <| by
    simp only [Option.all_eq_true, Bool.not_eq_eq_eq_not, Bool.not_true]
    exact ⟨fun ⟨passes, ne_nil, first, last⟩ => ⟨passes, ne_nil, first, last⟩,
      fun compound => ⟨compound.passes, compound.ne_nil, compound.first, compound.last⟩⟩

/-- What may stand between two commas of a list: a compound selector with whitespace around it, or whitespace
only. -/
inductive Piece : List Char → List (List Char) → Prop
  | blank {space : List Char} : Blank.AllBlank space → Piece space []
  | item {before item after : List Char} : Blank.AllBlank before → IsCompound item → Blank.AllBlank after →
      Piece (before ++ item ++ after) [item]

theorem IsCompound.piece {item : List Char} (compound : IsCompound item) : Piece item [item] := by
  have bare := Piece.item (List.forall_mem_nil _) compound (List.forall_mem_nil _)
  rwa [List.nil_append, List.append_nil] at bare

/-- The text is a list of the compound selectors, in order, with commas between its pieces. -/
inductive Lists : List Char → List (List Char) → Prop
  | last {text : List Char} {items : List (List Char)} : Piece text items → Lists text items
  | next {text rest : List Char} {items others : List (List Char)} : Piece text items → Lists rest others →
      Lists (text ++ ',' :: rest) (items ++ others)

/-- A character that leads somewhere ends no piece, and what follows it is read from there. -/
theorem cut_turn {c : Char} (noEscape : c ≠ '\\') {depth depthNext : Nat} {quote quoteNext : Option Char}
    (turns : turn depth quote c = some (depthNext, quoteNext)) (rest : List Char) :
    cut depth quote (c :: rest) = onFirst [c] (cut depthNext quoteNext rest) := by
  cases quote with
  | some mark =>
    cases turns
    exact cut_open noEscape depth mark rest
  | none =>
    rw [cut_closed noEscape]
    simp only [turn] at turns
    split_ifs at turns ⊢ <;> cases turns <;> rfl

/-- A character that closes no bracket too many does the same inside of further brackets. -/
theorem turn_raise {c : Char} {depth depthNext : Nat} {quote quoteNext : Option Char}
    (turns : turn depth quote c = some (depthNext, quoteNext)) (outer : Nat) :
    turn (depth + outer) quote c = some (depthNext + outer, quoteNext) := by
  unfold turn at turns ⊢
  grind

namespace Passes
variable {depth depthNext depthAfter : Nat} {quote quoteNext quoteAfter : Option Char} {s t : List Char}

theorem whole (passes : Passes depth quote s depthAfter quoteAfter) : Whole s := by
  induction passes with
  | nil => exact .nil
  | pair c _ ih => exact .pair c ih
  | single noEscape _ _ ih => exact .single noEscape trivial ih

theorem append (first : Passes depth quote s depthNext quoteNext)
    (second : Passes depthNext quoteNext t depthAfter quoteAfter) :
    Passes depth quote (s ++ t) depthAfter quoteAfter := by
  induction first with
  | nil => exact second
  | pair c _ ih => exact .pair c (ih second)
  | single noEscape turns _ ih => exact .single noEscape turns (ih second)

theorem raise (passes : Passes depth quote s depthAfter quoteAfter) (outer : Nat) :
    Passes (depth + outer) quote s (depthAfter + outer) quoteAfter := by
  induction passes with
  | nil => exact .nil
  | pair c _ ih => exact .pair c ih
  | single noEscape turns _ ih => exact .single noEscape (turn_raise turns outer) ih

/-- A text that leads somewhere stays in one piece, and the first piece of what follows is joined to it. -/
theorem cut_append (passes : Passes depth quote s depthAfter quoteAfter) (rest : List Char) :
    cut depth quote (s ++ rest) = onFirst s (cut depthAfter quoteAfter rest) := by
  induction passes with
  | nil => rw [List.nil_append, onFirst_nil (cut_ne_nil _ _ rest)]
  | pair c _ ih =>
    rw [List.cons_append, List.cons_append, cut.eq_3, ih, onFirst_onFirst]
    rfl
  | single noEscape turns _ ih =>
    rw [List.cons_append, cut_turn noEscape turns, ih, onFirst_onFirst, List.singleton_append]

theorem blank {space : List Char} (blank : Blank.AllBlank space) : Passes 0 none space 0 none := by
  induction space with
  | nil => exact .nil
  | cons c rest ih =>
    rw [Blank.AllBlank, List.forall_mem_cons] at blank
    have noEscape : c ≠ '\\' := by
      rintro rfl
      exact absurd blank.1 (by decide)
    have stays : turn 0 none c = some (0, none) := by
      have space := blank.1
      simp only [Blank.isBlank, Bool.or_eq_true, beq_iff_eq, or_assoc] at space
      rcases space with rfl | rfl | rfl | rfl | rfl <;> rfl
    exact .single noEscape stays (ih blank.2)

end Passes

namespace Piece
variable {text : List Char} {items : List (List Char)}

theorem passes (piece : Piece text items) : Passes 0 none text 0 none := by
  cases piece with
  | blank space => exact .blank space
  | item before compound after => exact ((Passes.blank before).append compound.passes).append (.blank after)

/-- What is left of a piece after trimming, unless it is nothing. -/
theorem trimmed (piece : Piece text items) : [Blank.trim text].filter (!·.isEmpty) = items := by
  cases piece with
  | blank space => rw [Blank.trim_blank space]; rfl
  | item before compound after =>
    rw [Blank.trim_append_blank after, Blank.trim_blank_append before,
      Blank.trim_eq_self compound.first compound.last]
    simp [compound.ne_nil]

end Piece

/-- A list is read as the items that it was written for. -/
theorem Lists.items_eq {text : List Char} {items : List (List Char)} (lists : Lists text items) :
    Selector.items text = items := by
  unfold Selector.items
  induction lists with
  | last piece =>
    have cutOnce := piece.passes.cut_append []
    rw [List.append_nil] at cutOnce
    rw [cutOnce]
    simpa [onFirst, cut] using piece.trimmed
  | @next text rest items others piece _ ih =>
    have cutHere : cut 0 none (',' :: rest) = [] :: cut 0 none rest := cut_closed (by decide) 0 rest
    rw [piece.passes.cut_append, cutHere, onFirst, List.append_nil, List.map_cons, ← List.singleton_append,
      List.filter_append, piece.trimmed, ih]

theorem Lists.parents_eq {text : List Char} {items : List (List Char)} (lists : Lists text items)
    (notEmpty : items ≠ []) : parents text = items := by
  unfold parents
  rw [lists.items_eq]
  cases items with
  | nil => exact absurd rfl notEmpty
  | cons => rfl

/-- A pattern inside a list is written for each item of the list, in order: the item stands between the
segments into which the placeholders divide the pattern, and both stay as they are. A pattern without a
placeholder is not written for any. -/
theorem selector_lists_distribute {parent : String} {items : List (List Char)} (lists : Lists parent.toList items)
    (notEmpty : items ≠ []) (pattern : String) :
    (∃ segments, Divides pattern.toList segments) ∧
      ∀ segments, Divides pattern.toList segments →
        nest parent pattern = if segments.length = 1 then pattern
          else ", ".intercalate (items.map fun item => String.ofList (item.intercalate segments)) := by
  refine ⟨Divides.exists_segments pattern.toList, fun segments divides => ?_⟩
  unfold nest
  by_cases single : segments.length = 1
  · rw [if_pos single, if_neg fun mentions => divides.mentionsParent_iff.mp mentions single]
  · rw [if_neg single, if_pos (divides.mentionsParent_iff.mpr single), lists.parents_eq notEmpty]
    simp only [divides.fill_eq]

/-- Commas in brackets, in a quote and behind a backslash, and placeholders in a quote and behind a
backslash. -/
theorem selector_lists_distribute_hidden :
    ∃ items segments, Lists " ,:is(a,b) ,,[x=\"&,\"]\\,".toList items ∧ items ≠ [] ∧
      Divides "&>\\&&".toList segments ∧
      nest " ,:is(a,b) ,,[x=\"&,\"]\\," "&>\\&&" =
        ":is(a,b)>\\&:is(a,b), [x=\"&,\"]\\,>\\&[x=\"&,\"]\\," := by
  have choice : IsCompound ":is(a,b)".toList := by decide
  have quoted : IsCompound "[x=\"&,\"]\\,".toList := by decide
  have blank : Blank.AllBlank [' '] := List.forall_mem_singleton.mpr rfl
  have nothing : Piece [] [] := .blank (List.forall_mem_nil _)
  have first : Piece ":is(a,b) ".toList [":is(a,b)".toList] := .item (List.forall_mem_nil _) choice blank
  have lists : Lists " ,:is(a,b) ,,[x=\"&,\"]\\,".toList [":is(a,b)".toList, "[x=\"&,\"]\\,".toList] :=
    .next (.blank blank) (.next first (.next nothing (.last quoted.piece)))
  have divides : Divides "&>\\&&".toList [[], ">\\&".toList, []] :=
    .parent .nil (.parent (.single (by decide) (by decide) (.pair '&' .nil)) (.last .nil))
  refine ⟨_, _, lists, by decide, divides, ?_⟩
  rw [(selector_lists_distribute lists (by decide) _).2 _ divides]
  decide

end NestedCss.Selector
