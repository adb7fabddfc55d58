import NestedCss.Style.Value

namespace NestedCss

/-- A filter with what it remembers. It decides from the fingerprint of a compiled text and the node whether the
text is passed on. -/
inductive Filter where
  /-- Passes every fingerprint once. The fingerprints that were passed, newest first. -/
  | unseen (prints : List String)
  /-- Holds back a node that has one of the words as a key, and a fingerprint that is one of the
  words; remembers nothing. -/
  | unwanted (words : List String)

namespace Filter
variable {B : Type}

def initial : Filter := unseen []

/-- The number of fingerprints that a filter remembers. -/
def count : Filter → Nat
  | unseen prints => prints.length
  | unwanted _ => 0

/-- Whether text is passed on, and the filter afterwards. -/
def accept (filter : Filter) (print : String) (node : Node B) : Bool × Filter :=
  match filter with
  | unseen prints => if prints.contains print then (false, filter) else (true, unseen (print :: prints))
  | unwanted words => (!words.any fun word => (node.get? word).isSome || word == print, filter)

end Filter

end NestedCss
