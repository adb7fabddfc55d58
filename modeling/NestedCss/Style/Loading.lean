import NestedCss.Json.Reader
import NestedCss.Style.Value

namespace NestedCss

/-- The JSON values that no style description holds. -/
inductive Unsupported where
  | null
  | array
  | root
  | item
  deriving DecidableEq

/-- What an unsupported value is called in messages. -/
def Unsupported.kind : Unsupported → String
  | null => "null"
  | array => "array"
  | root => "non-object root"
  | item => "non-object list item"

/-- Why a style description could not be read. -/
inductive LoadError where
  | malformed
  | unsupported (value : Unsupported)
  deriving DecidableEq

variable {B : Type}

mutual

/-- The value of a style description that a JSON value stands for. Strings and numbers stand for themselves,
booleans for their names, and objects for nodes. The first value without a meaning, in the order of the text,
decides the error. -/
def Value.ofJson : Json → Except Unsupported (Value B)
  | .text content => .ok (.text content)
  | .number content => .ok (.number content)
  | .bool content => .ok (.text (if content then "true" else "false"))
  | .object members => do return .node (← Node.ofMembers members)
  | .null => .error .null
  | .array _ => .error .array

/-- The node that the members of a JSON object stand for. -/
def Node.ofMembers : List (String × Json) → Except Unsupported (Node B)
  | [] => .ok []
  | (key, member) :: rest => do
    let value ← Value.ofJson member
    let node ← Node.ofMembers rest
    return (key, value) :: node

end

namespace Node

/-- The node of a JSON value that has to be an object. -/
def ofJson : Json → Except Unsupported (Node B)
  | .object members => ofMembers members
  | _ => .error .root

/-- The node of a list item. -/
def ofItem : Json → Except Unsupported (Node B)
  | .object members => ofMembers members
  | _ => .error .item

/-- The nodes of one object or of a list of objects. -/
def listOfJson : Json → Except Unsupported (List (Node B))
  | .object members => do return [← ofMembers members]
  | .array items => items.mapM ofItem
  | _ => .error .root

/-- Reads JSON text and turns it into what is asked for. -/
def load {α : Type} (convert : Json → Except Unsupported α) (text : String) : Except LoadError α :=
  match Json.parse text with
  | none => .error .malformed
  | some json => (convert json).mapError .unsupported

def fromText (text : String) : Except LoadError (Node B) := load ofJson text

def listFromText (text : String) : Except LoadError (List (Node B)) := load listOfJson text

end Node

end NestedCss
