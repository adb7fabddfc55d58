import Mathlib.Data.List.Forall2
import NestedCss.Proofs.SelectorCuts
import NestedCss.Proofs.UniformCompilation

namespace NestedCss

namespace Selector

/-- True unless a character can end, hide or start an item of a selector list. -/
def isPlain (c : Char) : Bool :=
  !(['\\', '"', '\'', '(', '[', ')', ']', ','].contains c) && !Blank.isBlank c

theorem cut_cons_plain {c : Char} (plain : isPlain c) {quote : Option Char} (isOpen : IsOpen quote) (depth : Nat)
    (rest : List Char) : cut depth quote (c :: rest) = onFirst [c] (cut depth quote rest) := by
  simp only [isPlain, List.contains_eq_mem, List.mem_cons, List.not_mem_nil, or_false, Bool.and_eq_true,
    Bool.not_eq_true', decide_eq_false_iff_not, not_or] at plain
  obtain ⟨⟨noEscape, noDouble, noSingle, noRound, noSquare, noRoundEnd, noSquareEnd, noComma⟩, -⟩ := plain
  cases quote with
  | none => simp [cut_closed noEscape, noDouble, noSingle, noRound, noSquare, noRoundEnd, noSquareEnd, noComma]
  | some mark =>
    have noMark : c ≠ mark := by
      rcases isOpen mark rfl with rfl | rfl
      · exact noDouble
      · exact noSingle
    simp [cut_open noEscape, noMark]

theorem cut_word {word : List Char} (plain : ∀ c ∈ word, isPlain c) {quote : Option Char} (isOpen : IsOpen quote)
    (depth : Nat) (rest : List Char) : cut depth quote (word ++ rest) = onFirst word (cut depth quote rest) := by
  induction word with
  | nil => rw [List.nil_append, onFirst_nil (cut_ne_nil depth quote rest)]
  | cons c word ih =>
    rw [List.forall_mem_cons] at plain
    rw [List.cons_append, cut_cons_plain plain.1 isOpen, ih plain.2, onFirst_onFirst, List.singleton_append]

/-- A plain word stays in one piece behind a backslash too, which hides its first character only. -/
theorem cut_escaped_word {word : List Char} (notEmpty : word ≠ []) (plain : ∀ c ∈ word, isPlain c)
    {quote : Option Char} (isOpen : IsOpen quote) (depth : Nat) (rest : List Char) :
    cut depth quote ('\\' :: (word ++ rest)) = onFirst ('\\' :: word) (cut depth quote rest) := by
  obtain ⟨c, word, rfl⟩ := List.exists_cons_of_ne_nil notEmpty
  rw [List.forall_mem_cons] at plain
  rw [List.cons_append, cut.eq_3, cut_word plain.2 isOpen, onFirst_onFirst]
  rfl

end Selector

/-- A word and the one that is written for it. -/
structure Renaming where
  old : List Char
  new : List Char
  old_ne_nil : old ≠ []
  new_ne_nil : new ≠ []
  old_plain : ∀ c ∈ old, Selector.isPlain c
  new_plain : ∀ c ∈ new, Selector.isPlain c

namespace Renaming
open Selector

/-- The same with both words read backwards. -/
def reverse (r : Renaming) : Renaming where
  old := r.old.reverse
  new := r.new.reverse
  old_ne_nil := by simpa using r.old_ne_nil
  new_ne_nil := by simpa using r.new_ne_nil
  old_plain c inside := r.old_plain c (List.mem_reverse.mp inside)
  new_plain c inside := r.new_plain c (List.mem_reverse.mp inside)

/-- Some of the old words in the first text are the new word in the second one. -/
inductive Turns (r : Renaming) : List Char → List Char → Prop
  | nil : Turns r [] []
  | keep (c : Char) {s t : List Char} : Turns r s t → Turns r (c :: s) (c :: t)
  | word {s t : List Char} : Turns r s t → Turns r (r.old ++ s) (r.new ++ t)

variable {r : Renaming} {s t : List Char}

theorem Turns.refl (chars : List Char) : Turns r chars chars := by
  induction chars with
  | nil => exact .nil
  | cons c rest ih => exact .keep c ih

theorem Turns.single : Turns r r.old r.new := by
  simpa using Turns.word (r := r) .nil

theorem Turns.append {s' t' : List Char} (first : Turns r s t) (second : Turns r s' t') :
    Turns r (s ++ s') (t ++ t') := by
  induction first with
  | nil => exact second
  | keep c _ ih => exact .keep c ih
  | word _ ih =>
    rw [List.append_assoc, List.append_assoc]
    exact .word ih

theorem Turns.eq_nil_iff (turns : Turns r s t) : s = [] ↔ t = [] := by
  cases turns with
  | nil => exact Iff.rfl
  | keep => simp
  | word => simp [r.old_ne_nil, r.new_ne_nil]

theorem Turns.reverse (turns : Turns r s t) : Turns r.reverse s.reverse t.reverse := by
  induction turns with
  | nil => exact .nil
  | keep c _ ih =>
    rw [List.reverse_cons, List.reverse_cons]
    exact ih.append (.refl [c])
  | word _ ih =>
    rw [List.reverse_append, List.reverse_append]
    exact ih.append (.single (r := r.reverse))

theorem dropBlank_word {word : List Char} (notEmpty : word ≠ []) (plain : ∀ c ∈ word, isPlain c) (rest : List Char) :
    (word ++ rest).dropWhile Blank.isBlank = word ++ rest := by
  obtain ⟨c, word, rfl⟩ := List.exists_cons_of_ne_nil notEmpty
  have first := plain c (List.mem_cons_self ..)
  simp only [isPlain, Bool.and_eq_true, Bool.not_eq_true'] at first
  simp [first.2]

theorem Turns.dropBlank (turns : Turns r s t) : Turns r (s.dropWhile Blank.isBlank) (t.dropWhile Blank.isBlank) := by
  induction turns with
  | nil => exact .nil
  | @keep c s t turns ih =>
    rw [List.dropWhile_cons, List.dropWhile_cons]
    split
    · exact ih
    · exact .keep c turns
  | word turns =>
    rw [dropBlank_word r.old_ne_nil r.old_plain, dropBlank_word r.new_ne_nil r.new_plain]
    exact .word turns

/-- Trimming takes off the same on both sides, for neither word has whitespace in it. The end of a text is its
start read backwards. -/
theorem Turns.trim (turns : Turns r s t) : Turns r (Blank.trim s) (Blank.trim t) := by
  simpa [Blank.trim, Renaming.reverse] using turns.dropBlank.reverse.dropBlank.reverse

theorem Turns.onFirst {before after : List Char} (first : Turns r before after) {list listOther : List (List Char)}
    (turns : List.Forall₂ (Turns r) list listOther) :
    List.Forall₂ (Turns r) (Selector.onFirst before list) (Selector.onFirst after listOther) := by
  cases turns with
  | nil => exact .cons first .nil
  | cons head others => exact .cons (first.append head) others

/-- Both lists are cut at the same commas. A word can stand behind a backslash that is kept, which
hides its first character; so the induction carries the texts with a backslash before them along. -/
theorem Turns.cut (turns : Turns r s t) (depth : Nat) {quote : Option Char} (isOpen : IsOpen quote) :
    List.Forall₂ (Turns r) (Selector.cut depth quote s) (Selector.cut depth quote t) ∧
      List.Forall₂ (Turns r) (Selector.cut depth quote ('\\' :: s)) (Selector.cut depth quote ('\\' :: t)) := by
  induction turns generalizing depth quote with
  | nil => exact ⟨.cons .nil .nil, .cons (.refl _) .nil⟩
  | @keep c s t _ ih =>
    constructor
    · by_cases escape : c = '\\'
      · subst escape
        exact (ih depth isOpen).2
      · obtain ⟨depthAfter, quoteAfter, isOpenAfter, goesOn | ends⟩ := cut_cons escape isOpen depth
        · rw [goesOn s, goesOn t]
          exact (Turns.refl [c]).onFirst (ih depthAfter isOpenAfter).1
        · rw [ends s, ends t]
          exact .cons .nil (ih depthAfter isOpenAfter).1
    · rw [cut.eq_3, cut.eq_3]
      exact (Turns.refl ['\\', c]).onFirst (ih depth isOpen).1
  | word _ ih =>
    have rest := (ih depth isOpen).1
    constructor
    · rw [cut_word r.old_plain isOpen, cut_word r.new_plain isOpen]
      exact Turns.single.onFirst rest
    · rw [cut_escaped_word r.old_ne_nil r.old_plain isOpen, cut_escaped_word r.new_ne_nil r.new_plain isOpen]
      exact (Turns.keep '\\' .single).onFirst rest

/-- A renamed list has as many items as before, and each of them is renamed. -/
theorem Turns.parents (turns : Turns r s t) : List.Forall₂ (Turns r) (Selector.parents s) (Selector.parents t) := by
  have trimmed : List.Forall₂ (Turns r) ((Selector.cut 0 none s).map Blank.trim) ((Selector.cut 0 none t).map Blank.trim) :=
    List.rel_map (fun _ _ same => same.trim) (turns.cut 0 isOpen_none).1
  have items : List.Forall₂ (Turns r) (Selector.items s) (Selector.items t) := by
    refine List.rel_filter (fun one other same => ?_) trimmed
    simpa using not_congr same.eq_nil_iff
  unfold Selector.parents
  generalize Selector.items s = list, Selector.items t = listOther at items
  cases items with
  | nil => exact .cons .nil .nil
  | cons first others => exact .cons first others

/-- Filling a pattern with a renamed item renames what comes of it; the pattern itself stays as it is. -/
theorem Turns.fill (turns : Turns r s t) (pattern : List Char) :
    Turns r (Selector.fill s pattern) (Selector.fill t pattern) := by
  induction pattern using Selector.fill.induct with
  | case1 => exact .nil
  | case2 => exact .refl _
  | case3 c rest ih => exact .keep _ (.keep _ ih)
  | case4 c rest noEnd noPair mentions ih =>
    rw [Selector.fill.eq_4 s c rest noEnd noPair, Selector.fill.eq_4 t c rest noEnd noPair, if_pos mentions, if_pos mentions]
    exact turns.append ih
  | case5 c rest noEnd noPair mentions ih =>
    rw [Selector.fill.eq_4 s c rest noEnd noPair, Selector.fill.eq_4 t c rest noEnd noPair, if_neg mentions, if_neg mentions]
    exact .keep c ih

theorem Turns.intercalate (separator : String) {list listOther : List String}
    (turns : List.Forall₂ (fun one other => Turns r one.toList other.toList) list listOther) :
    Turns r (separator.intercalate list).toList (separator.intercalate listOther).toList := by
  induction turns with
  | nil => exact .nil
  | @cons first firstOther others othersOther head rest ih =>
    cases rest with
    | nil => simpa using head
    | cons =>
      rw [String.intercalate_cons_cons, String.intercalate_cons_cons]
      simp only [String.toList_append]
      exact (head.append (.refl _)).append ih

/-- A renamed selector makes renamed selectors of the blocks inside it. -/
theorem Turns.nest {parent parentOther : String} (turns : Turns r parent.toList parentOther.toList) (pattern : String) :
    Turns r (Selector.nest parent pattern).toList (Selector.nest parentOther pattern).toList := by
  unfold Selector.nest
  split
  · refine Turns.intercalate ", " (List.rel_map (fun item itemOther same => ?_) turns.parents)
    rw [String.toList_ofList, String.toList_ofList]
    exact same.fill pattern.toList
  · exact .refl _

def relation (r : Renaming) : TextRelation where
  holds one other := Turns r one.toList other.toList
  refl text := .refl text.toList
  append first second := by
    rw [String.toList_append, String.toList_append]
    exact first.append second
  isEmpty_eq turns := by
    have same := turns.eq_nil_iff
    rw [String.toList_eq_nil_iff, String.toList_eq_nil_iff] at same
    rw [Bool.eq_iff_iff, String.isEmpty_iff, String.isEmpty_iff, same]
  nest pattern turns := turns.nest pattern

end Renaming

end NestedCss
