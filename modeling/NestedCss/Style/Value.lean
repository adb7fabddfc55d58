import NestedCss.Macro.Capture
import NestedCss.Number.Text
import NestedCss.Property.ResolverChain
import NestedCss.Style.Entries
import NestedCss.Text.Blank

namespace NestedCss

/-- A value in a style description. The type `B` holds the bodies of macros. -/
inductive Value (B : Type) where
  | text (content : String)
  | number (content : Float)
  | node (entries : List (String × Value B))
  | callable (mode : CaptureMode) (body : B)
  | resolver (rule : TokenRule)

/-- A style description. Its order is the order in which declarations and nested rules are written. -/
abbrev Node (B : Type) := Entries (Value B)

/-- How a macro body expands an argument into a style description. -/
class Expansion (B : Type) where
  expand : B → Value B → Node B

namespace Value
variable {B : Type}

/-- The text of a string or a number. -/
def primitive? : Value B → Option String
  | text content => some content
  | number content => some (Number.text content)
  | _ => none

def isPrimitive : Value B → Bool
  | text _ | number _ => true
  | _ => false

/-- What is shown for a value where text is expected. -/
def shown : Value B → String
  | text content => content
  | number content => Number.text content
  | node _ => "[node]"
  | callable .. => "[macro]"
  | resolver _ => "[resolver]"

def text? : Value B → Option String
  | text content => some content
  | _ => none

def node? : Value B → Option (Node B)
  | node entries => some entries
  | _ => none

/-- A number, or the number that a string reads as without the whitespace around it. -/
def number? : Value B → Option Float
  | number content => some content
  | text content => Number.read (Blank.trim content.toList)
  | _ => none

end Value

end NestedCss
