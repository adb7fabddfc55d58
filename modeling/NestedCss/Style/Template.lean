import NestedCss.Style.Value

namespace NestedCss

inductive Arithmetic where
  | add
  | sub
  | mul
  | div

def Arithmetic.apply : Arithmetic → Float → Float → Float
  | add, a, b => a + b
  | sub, a, b => a - b
  | mul, a, b => a * b
  | div, a, b => a / b

/-- Which tokens a rule answers, and the text that it answers with. What is left of the token
without its required start and end is called the rest. -/
structure TokenPattern (T : Type) where
  token : Option String
  property : Option String
  start : Option String
  finish : Option String
  /-- Whether the rest has to be a number of ASCII digits. -/
  digits : Bool
  output : T

/-- Removes a required start from a text. -/
def dropStart (start chars : List Char) : Option (List Char) :=
  if start.isPrefixOf chars then some (chars.drop start.length) else none

/-- The rest of a token that a pattern matches. -/
def TokenPattern.rest {T : Type} (pattern : TokenPattern T) (token property : String) :
    Option String := do
  guard (pattern.token.all (· == token) && pattern.property.all (· == property))
  let behind ← dropStart ((pattern.start.getD "").toList) token.toList
  let middle ← dropStart ((pattern.finish.getD "").toList.reverse) behind.reverse
  guard (!pattern.digits || (!middle.isEmpty && middle.all Char.isDigit))
  some (String.ofList middle.reverse)

/-- A style value in which the arguments of the enclosing macros may stand. -/
inductive Template where
  | text (content : String)
  | number (content : Float)
  /-- Keys are templates too, and stand for the text that is shown for their values. -/
  | node (entries : List (Template × Template))
  /-- The texts shown for several values, one behind the other. -/
  | concat (parts : List Template)
  | calc (operation : Arithmetic) (left right : Template)
  /-- The argument of an enclosing macro, counted from the innermost. -/
  | argument (index : Nat)
  /-- The value of a key of a node. -/
  | field (source : Template) (key : String)
  /-- A value inside a number of nodes with one key. -/
  | nest (count : Nat) (key : String) (inner : Template)
  | callable (mode : CaptureMode) (body : Template)
  | resolver (patterns : List (TokenPattern Template))

/-- A macro body: a template and the arguments that were bound where the macro was made, innermost first. -/
inductive Closure where
  | mk (body : Template) (arguments : List (Value Closure))

namespace Template

/-- The number that a value stands for in a calculation. -/
def operand (value : Value Closure) : Float :=
  value.number?.getD 0

/-- The value of a key, or an empty string. -/
def lookUp (source : Value Closure) (key : String) : Value Closure :=
  ((source.node?.bind fun node => node.get? key)).getD (.text "")

/-- A value inside a number of nodes with one key. -/
def wrap (key : String) (inner : Value Closure) : Nat → Value Closure
  | 0 => inner
  | count + 1 => .node [(key, wrap key inner count)]

mutual

/-- The value of a template under a list of arguments. -/
def eval (arguments : List (Value Closure)) : Template → Value Closure
  | .text content => .text content
  | .number content => .number content
  | .node entries => .node (Entries.ofList (evalEntries arguments entries))
  | .concat parts => .text (evalText arguments parts)
  | .calc operation left right =>
    .number (operation.apply (operand (eval arguments left)) (operand (eval arguments right)))
  | .argument index => arguments.getD index (.text "")
  | .field source key => lookUp (eval arguments source) key
  | .nest count key inner => wrap key (eval arguments inner) count
  | .callable mode body => .callable mode (.mk body arguments)
  | .resolver patterns => .resolver (answer arguments patterns)

/-- The entries of a node in order; a key may be repeated. -/
def evalEntries (arguments : List (Value Closure)) :
    List (Template × Template) → List (String × Value Closure)
  | [] => []
  | (key, value) :: rest =>
    ((eval arguments key).shown, eval arguments value) :: evalEntries arguments rest

/-- The texts shown for several templates, one behind the other. -/
def evalText (arguments : List (Value Closure)) : List Template → String
  | [] => ""
  | part :: rest => (eval arguments part).shown ++ evalText arguments rest

/-- The answer of the first pattern that matches a token. Its output sees the property, the token
and the rest as three more arguments, the rest innermost. -/
def answer (arguments : List (Value Closure)) :
    List (TokenPattern Template) → String → String → Option String
  | [], _, _ => none
  | ⟨token?, property?, start, finish, digits, output⟩ :: others, token, property =>
    match TokenPattern.rest ⟨token?, property?, start, finish, digits, ()⟩ token property with
    | some rest => some (eval (.text rest :: .text token :: .text property :: arguments) output).shown
    | none => answer arguments others token property

end

end Template

/-- The expansion of an argument; a body that is not a node expands to nothing. -/
def Closure.expand : Closure → Value Closure → Node Closure
  | .mk body arguments, argument => ((body.eval (argument :: arguments)).node?).getD []

instance : Expansion Closure := ⟨Closure.expand⟩

end NestedCss
