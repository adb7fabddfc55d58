import NestedCss.Compilation.Level
import NestedCss.Proofs.DeclaredNames

namespace NestedCss

/-- A property with its value, as it is written. -/
structure Declaration where
  name : String
  value : String
  name_ne_empty : name ≠ ""
  name_chars : ∀ c ∈ name.toList, isNameChar c

/-- An item of a style sheet. Rules and blocks have something in them. -/
inductive Item where
  | rule (selector : String) (first : Declaration) (others : List Declaration)
  | block (key : String) (isAtRule : key.toList.head? = some '@') (first : Item) (others : List Item)
  | statement (key : String) (isAtRule : key.toList.head? = some '@') (value : String)

def Declaration.text (declaration : Declaration) : String :=
  declaration.name ++ ":" ++ declaration.value ++ ";"

def Declaration.texts (declarations : List Declaration) : String :=
  String.join (declarations.map Declaration.text)

mutual

def Item.text : Item → String
  | .rule selector first others => selector ++ Fragment.braces (Declaration.texts (first :: others))
  | .block key _ first others => key ++ Fragment.braces (first.text ++ Item.texts others)
  | .statement key _ value => key ++ " " ++ value ++ ";"

/-- Items one behind the other. -/
def Item.texts : List Item → String
  | [] => ""
  | item :: others => item.text ++ Item.texts others

end

/-- The rule for a selector, if there is a declaration for it. -/
def Item.ofDeclarations (selector : String) : List Declaration → List Item
  | [] => []
  | first :: others => [.rule selector first others]

theorem Declaration.texts_append (first second : List Declaration) :
    texts (first ++ second) = texts first ++ texts second := by
  simp [texts]

/-- No declaration is written as nothing. -/
theorem Declaration.texts_eq_empty_iff {declarations : List Declaration} :
    texts declarations = "" ↔ declarations = [] := by
  cases declarations with
  | nil => simp [texts]
  | cons first others => simp [texts, text, String.append_eq_empty_iff]

theorem Item.texts_append (first second : List Item) : texts (first ++ second) = texts first ++ texts second := by
  induction first with
  | nil => simp [texts]
  | cons item others ih => simp [texts, ih, String.append_assoc]

theorem Item.texts_eq_empty_iff {items : List Item} : texts items = "" ↔ items = [] := by
  cases items with
  | nil => simp [texts]
  | cons first others =>
    cases first <;> simp [texts, text, Fragment.braces, String.append_eq_empty_iff]

namespace Fragment

/-- The fragment of some declarations and items. -/
def ofItems (declarations : List Declaration) (items : List Item) : Fragment :=
  ⟨Declaration.texts declarations, Item.texts items⟩

/-- The fragment consists of declarations and items, and is empty unless something is written. -/
def Consists (fragment : Fragment) (writes : Prop) : Prop :=
  ∃ declarations items, fragment = ofItems declarations items ∧ (declarations = [] ∧ items = [] ↔ ¬ writes)

variable {fragment other : Fragment} {writes writesOther : Prop}

theorem Consists.empty (silent : ¬ writes) : Consists .empty writes :=
  ⟨[], [], rfl, by simpa using silent⟩

theorem Consists.join (first : fragment.Consists writes) (second : other.Consists writesOther) :
    (fragment.join other).Consists (writes ∨ writesOther) := by
  obtain ⟨declarations, items, rfl, quiet⟩ := first
  obtain ⟨declarationsOther, itemsOther, rfl, quietOther⟩ := second
  refine ⟨declarations ++ declarationsOther, items ++ itemsOther, ?_, ?_⟩
  · simp [Fragment.join, ofItems, Declaration.texts_append, Item.texts_append]
  · rw [not_or, ← quiet, ← quietOther, List.append_eq_nil_iff, List.append_eq_nil_iff]
    exact and_and_and_comm

/-- The rendered fragment is a list of items, and no item if nothing is written. -/
theorem Consists.render (consists : fragment.Consists writes) (selector : String) :
    ∃ items, fragment.render selector = Item.texts items ∧ (items = [] ↔ ¬ writes) := by
  obtain ⟨declarations, items, rfl, quiet⟩ := consists
  refine ⟨Item.ofDeclarations selector declarations ++ items, ?_, ?_⟩
  · rw [Item.texts_append, Fragment.render]
    cases declarations with
    | nil => rfl
    | cons first others =>
      have declared : Declaration.texts (first :: others) ≠ "" :=
        Declaration.texts_eq_empty_iff.not.mpr (List.cons_ne_nil first others)
      rw [if_neg (by simpa [ofItems] using declared)]
      simp [Item.ofDeclarations, Item.texts, Item.text, ofItems]
  · rw [← quiet, List.append_eq_nil_iff]
    cases declarations <;> simp [Item.ofDeclarations]

end Fragment

namespace Level
variable {B : Type} {level next last : Level B} {writes writesLater : Prop}

/-- Declarations and items are added to the text of a level, and none if nothing is written. -/
def Grows (level next : Level B) (writes : Prop) : Prop :=
  ∃ added, next.fragment = level.fragment.join added ∧ added.Consists writes

namespace Grows

theorem of_same (same : next.fragment = level.fragment) (silent : ¬ writes) : level.Grows next writes :=
  ⟨.empty, by rw [same, Fragment.join_empty], .empty silent⟩

theorem trans (first : level.Grows next writes) (second : next.Grows last writesLater) :
    level.Grows last (writes ∨ writesLater) := by
  obtain ⟨added, grown, consists⟩ := first
  obtain ⟨addedLater, grownLater, consistsLater⟩ := second
  exact ⟨added.join addedLater, by rw [grownLater, grown, Fragment.join_assoc], consists.join consistsLater⟩

theorem absorb {expansion : Level B} (consists : expansion.fragment.Consists writes) :
    level.Grows (level.absorb expansion) writes :=
  ⟨expansion.fragment, rfl, consists⟩

theorem declare {key : String} (property : isPropertyKey key = true) (scope : Scope B) (value : Value B) :
    level.Grows (level.declare (declaration scope key value)) True := by
  obtain ⟨declared, text⟩ : ∃ declared : Declaration, declared.text = declaration scope key value :=
    ⟨⟨_, _, PropertyName.ofKey_ne_empty property, PropertyName.ofKey_chars property⟩, rfl⟩
  refine ⟨.ofItems [declared] [], ?_, [declared], [], rfl, by simp⟩
  simp [Level.declare, Fragment.join, Fragment.ofItems, Declaration.texts, Item.texts, text]

theorem emit {items : List Item} (quiet : items = [] ↔ ¬ writes) :
    level.Grows (level.emit (Item.texts items)) writes := by
  refine ⟨.ofItems [] items, ?_, [], items, rfl, by simpa using quiet⟩
  simp [Level.emit, Fragment.join, Fragment.ofItems, Declaration.texts]

theorem statement {key : String} (isAtRule : key.toList.head? = some '@') (value : String) :
    level.Grows (level.emit (key ++ " " ++ value ++ ";")) True := by
  have put : key ++ " " ++ value ++ ";" = Item.texts [.statement key isAtRule value] := by
    simp [Item.texts, Item.text]
  rw [put]
  exact emit (by simp)

/-- Items that are put between braces only if there are any. -/
theorem block {key : String} (isAtRule : key.toList.head? = some '@') {items : List Item}
    (quiet : items = [] ↔ ¬ writes) :
    level.Grows
      (if (Item.texts items).isEmpty then level else level.emit (key ++ Fragment.braces (Item.texts items)))
      writes := by
  cases items with
  | nil => exact of_same rfl (quiet.mp rfl)
  | cons first others =>
    have shown : (Item.texts (first :: others)).isEmpty = false := by
      simpa using Item.texts_eq_empty_iff.not.mpr (List.cons_ne_nil first others)
    have put : key ++ Fragment.braces (Item.texts (first :: others)) =
        Item.texts [.block key isAtRule first others] := by
      simp [Item.texts, Item.text]
    rw [shown, if_neg Bool.false_ne_true, put]
    exact emit (by simpa using quiet)

end Grows

end Level

end NestedCss
