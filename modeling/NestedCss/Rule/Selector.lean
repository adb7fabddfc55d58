import NestedCss.Text.Blank

namespace NestedCss.Selector

/-- True if a `&` stands in the pattern outside every backslash pair. A backslash and the character behind it are
one unit wherever a selector is read: the character is neither a placeholder nor a comma, bracket or quote. -/
def mentionsParent : List Char → Bool
  | [] => false
  | ['\\'] => false
  | '\\' :: _ :: rest => mentionsParent rest
  | c :: rest => c == '&' || mentionsParent rest

/-- Writes the selector for every `&` outside a backslash pair. -/
def fill (selector : List Char) : List Char → List Char
  | [] => []
  | ['\\'] => ['\\']
  | '\\' :: c :: rest => '\\' :: c :: fill selector rest
  | c :: rest => if c == '&' then selector ++ fill selector rest else c :: fill selector rest

/-- Puts characters in front of the first item of a list of items. -/
def onFirst (before : List Char) : List (List Char) → List (List Char)
  | [] => [before]
  | first :: others => (before ++ first) :: others

/-- The items of a selector list, cut at the commas outside brackets and quotes. `depth` counts the
open brackets and `quote` is the open quote. -/
def cut (depth : Nat) (quote : Option Char) : List Char → List (List Char)
  | [] => [[]]
  | ['\\'] => [['\\']]
  | '\\' :: c :: rest => onFirst ['\\', c] (cut depth quote rest)
  | c :: rest =>
    match quote with
    | some mark => onFirst [c] (cut depth (if c == mark then none else some mark) rest)
    | none =>
      if c == '"' || c == '\'' then onFirst [c] (cut depth (some c) rest)
      else if c == '(' || c == '[' then onFirst [c] (cut (depth + 1) none rest)
      else if c == ')' || c == ']' then onFirst [c] (cut (depth - 1) none rest)
      else if c == ',' && depth == 0 then [] :: cut 0 none rest
      else onFirst [c] (cut depth none rest)

/-- The items of a selector list without the whitespace around them; blank items are left out. -/
def items (selector : List Char) : List (List Char) :=
  ((cut 0 none selector).map Blank.trim).filter (!·.isEmpty)

/-- The items that a pattern is written for: those of the selector, or one empty item if it has
none. -/
def parents (selector : List Char) : List (List Char) :=
  match items selector with
  | [] => [[]]
  | first :: others => first :: others

/-- The selector of a block whose key is `pattern` inside a block for `parent`. Where `parent` is a list, the
pattern is written once for each item. A pattern without a placeholder stands for itself. -/
def nest (parent pattern : String) : String :=
  if mentionsParent pattern.toList then
    ", ".intercalate ((parents parent.toList).map fun item =>
      String.ofList (fill item pattern.toList))
  else pattern

end NestedCss.Selector
