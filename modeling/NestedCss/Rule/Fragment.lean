namespace NestedCss

/-- The text that a level of a style description is compiled to, in two parts. -/
structure Fragment where
  /-- The declarations for the selector of the level. -/
  body : String
  /-- The nested rules and at-rules. -/
  outside : String
  deriving DecidableEq

namespace Fragment

def empty : Fragment := ⟨"", ""⟩

/-- Appends another fragment part by part. -/
def join (first second : Fragment) : Fragment :=
  ⟨first.body ++ second.body, first.outside ++ second.outside⟩

/-- A text between braces. -/
def braces (text : String) : String := "\x7b" ++ text ++ "\x7d"

/-- The fragment as a rule for its selector and the rules behind it. Without declarations there is
no rule. -/
def render (fragment : Fragment) (selector : String) : String :=
  if fragment.body.isEmpty then fragment.outside
  else selector ++ braces fragment.body ++ fragment.outside

@[simp] theorem empty_join (fragment : Fragment) : empty.join fragment = fragment := by
  simp [join, empty]

@[simp] theorem join_empty (fragment : Fragment) : fragment.join empty = fragment := by
  simp [join, empty]

/-- Fragments can be joined from either end. -/
theorem join_assoc (first second third : Fragment) :
    first.join (second.join third) = (first.join second).join third := by
  simp only [join, String.append_assoc]

end Fragment

end NestedCss
