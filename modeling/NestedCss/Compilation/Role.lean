import NestedCss.Macro.Scope

namespace NestedCss

variable {B : Type}

/-- What a key means. It follows from the spelling of the key, from the macros in scope, and from the kind of the
value. -/
inductive Role (B : Type) where
  /-- `$$` puts a token rule in front of the chain. -/
  | rule
  /-- `$$name` defines a macro. -/
  | define (name : String)
  /-- The name of a macro in scope invokes it. -/
  | invoke (entry : Macro B)
  | property
  /-- A key that starts with `@`. -/
  | atRule
  | selector

/-- Characters of property keys behind the sigil. -/
def isPropertyChar (c : Char) : Bool :=
  c.isAlphanum || c == '_' || c == '-'

/-- True for an optional `$` with at least one property character behind it. -/
def isPropertyKey (key : String) : Bool :=
  let name := match key.toList with
    | '$' :: name => name
    | name => name
  !name.isEmpty && name.all isPropertyChar

/-- The role of a key with a value in a scope. -/
def Role.of (scope : Scope B) (key : String) (value : Value B) : Role B :=
  match key.toList with
  | ['$', '$'] => .rule
  | '$' :: '$' :: name => .define (String.ofList name)
  | chars =>
    match scope.find? key with
    | some entry => .invoke entry
    | none =>
      if value.isPrimitive && isPropertyKey key then .property
      else if chars.head? = some '@' then .atRule
      else .selector

end NestedCss
