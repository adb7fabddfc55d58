import NestedCss.Property.Name

namespace NestedCss

/-- A rule maps a token and the property it stands in to a text, or declines. -/
abbrev TokenRule := String → String → Option String

/-- The rules in the order in which they are asked, newest first. The built-in rule answers where all of them
decline, so that every token has a text. -/
abbrev ResolverChain := List TokenRule

namespace ResolverChain

/-- The text of the first rule that does not decline. -/
def ask (chain : ResolverChain) (token property : String) : Option String :=
  chain.findSome? fun rule => rule token property

/-- A name behind a sigil is not empty and does not start with another sigil. -/
def isBare : List Char → Bool
  | [] => false
  | c :: _ => c != '$'

/-- The built-in rule: `$name` refers to the custom property of the name, and any other token stands
for itself. -/
def byDefault (token : String) : String :=
  match token.toList with
  | '$' :: name => if isBare name then PropertyName.reference (String.ofList name) else token
  | _ => token

/-- The text for a token that carries no double sigil. -/
def resolvePlain (chain : ResolverChain) (token property : String) : String :=
  (chain.ask token property).getD (byDefault token)

/-- The text for a token. A token that starts with a backslash stands for itself. The rules see
`$$name` as `name`, and if they decline it refers to the custom property of the name. -/
def resolve (chain : ResolverChain) (token property : String) : String :=
  match token.toList with
  | '\\' :: _ => token
  | '$' :: '$' :: name =>
    if isBare name then
      let name := String.ofList name
      (chain.ask name property).getD (PropertyName.reference name)
    else resolvePlain chain token property
  | _ => resolvePlain chain token property

end ResolverChain

end NestedCss
