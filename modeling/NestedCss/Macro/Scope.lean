import NestedCss.Style.Value

namespace NestedCss

/-- What is known about a macro: its body, which is missing if the definition was not callable, and
the scope that its expansion is compiled in, which is missing if that is the scope of the
invocation. -/
structure Definition (B S : Type) where
  body : Option B
  captured : Option S

/-- What one level defines. A frame is a value: one that was captured does not change when its level goes on. -/
structure Frame (B : Type) where
  /-- Newest first. An older definition of a name is never seen again. -/
  definitions : List (String × Definition B (List (Frame B)))
  /-- The whole chain of token rules, if this level has put one in front. -/
  chain : Option ResolverChain

/-- The frames that can be seen from a level, nearest first. -/
abbrev Scope (B : Type) := List (Frame B)

/-- A macro as frames hold it. -/
abbrev Macro (B : Type) := Definition B (Scope B)

variable {B : Type}

namespace Frame

def empty : Frame B := ⟨[], none⟩

/-- The definition of a name at this level. -/
def find? (frame : Frame B) (name : String) : Option (Macro B) :=
  frame.definitions.lookup name

/-- Defines a macro in place of an earlier one of its name. -/
def define (frame : Frame B) (name : String) (entry : Macro B) : Frame B :=
  { frame with definitions := (name, entry) :: frame.definitions }

/-- Takes over what another level defines. Its macros replace those of the same names, and its
chain, if it has one, replaces the chain. -/
def merge (frame exported : Frame B) : Frame B where
  definitions := exported.definitions ++ frame.definitions
  chain := exported.chain.or frame.chain

/-- The names defined at this level, sorted. -/
def names (frame : Frame B) : List String :=
  (frame.definitions.map Prod.fst).eraseDups.mergeSort (fun a b => decide (a ≤ b))

end Frame

namespace Scope

/-- The nearest definition of a name. -/
def find? (scope : Scope B) (name : String) : Option (Macro B) :=
  scope.findSome? fun frame => frame.find? name

/-- The chain of the nearest frame that has one. -/
def chain (scope : Scope B) : ResolverChain :=
  (scope.findSome? Frame.chain).getD []

/-- All that can be seen from a level, in one frame. -/
def flatten (scope : Scope B) : Scope B :=
  [⟨scope.flatMap Frame.definitions, some scope.chain⟩]

/-- True if a macro of this name can be invoked or refused. -/
def contains (scope : Scope B) (name : String) : Bool :=
  (scope.find? name).isSome

/-- True if the macro of this name has a body. -/
def hasBody (scope : Scope B) (name : String) : Bool :=
  (scope.find? name).any fun entry => entry.body.isSome

end Scope

/-- Puts a rule in front of the chain that is seen from a level. -/
def Frame.putRule (frame : Frame B) (enclosing : Scope B) (rule : TokenRule) : Frame B :=
  { frame with chain := some (rule :: Scope.chain (frame :: enclosing)) }

namespace Frame

@[simp] theorem find?_empty (name : String) : (empty : Frame B).find? name = none := rfl

/-- A name that is defined again stands for the new macro, and other names for theirs. -/
theorem find?_define (frame : Frame B) (name other : String) (entry : Macro B) :
    (frame.define name entry).find? other = if other = name then some entry else frame.find? other := by
  by_cases same : other = name
  · simp [define, find?, same]
  · simp [define, find?, List.lookup_cons, beq_eq_false_iff_ne.mpr same, same]

end Frame

namespace Scope

@[simp] theorem find?_cons (frame : Frame B) (scope : Scope B) (name : String) :
    find? (frame :: scope) name = (frame.find? name).or (find? scope name) := by
  cases found : frame.find? name <;> simp [find?, found]

/-- Flattening keeps the chain that is visible. -/
@[simp] theorem chain_flatten (scope : Scope B) : chain (flatten scope) = chain scope := by
  simp [chain, flatten]

end Scope

end NestedCss
