import NestedCss.Compilation.Report
import NestedCss.Compilation.Role
import NestedCss.Property.Segment
import NestedCss.Rule.Fragment
import NestedCss.Rule.Selector

namespace NestedCss

variable {B : Type}

/-- What a level has come to: the text it stands for, and the frame of what it defines. Who compiled it decides
whether that frame is taken over. -/
structure Level (B : Type) where
  frame : Frame B
  fragment : Fragment

/-- Compiles a node for a selector in a scope. -/
abbrev Compiler (B : Type) := Node B → String → Scope B → Report (Level B)

namespace Level

def start : Level B := ⟨Frame.empty, Fragment.empty⟩

def declare (level : Level B) (text : String) : Level B :=
  { level with fragment := { level.fragment with body := level.fragment.body ++ text } }

def emit (level : Level B) (text : String) : Level B :=
  { level with fragment := { level.fragment with outside := level.fragment.outside ++ text } }

/-- Takes over the frame and the text of an expansion. -/
def absorb (level expansion : Level B) : Level B :=
  ⟨level.frame.merge expansion.frame, level.fragment.join expansion.fragment⟩

def putRule (level : Level B) (enclosing : Scope B) (rule : TokenRule) : Level B :=
  { level with frame := level.frame.putRule enclosing rule }

def define (level : Level B) (name : String) (entry : Macro B) : Level B :=
  { level with frame := level.frame.define name entry }

end Level

/-- The compiler of the level below a key, if the key is not at the deepest level. -/
def enter (below : Option (Compiler B)) (key : String) : Report (Compiler B) :=
  match below with
  | some compiler => pure compiler
  | none => Report.fail (.tooDeep key)

/-- What `$$name` defines. A definition that is not callable captures like any other, and is
reported. -/
def definition (policy : CapturePolicy) (name : String) (scope : Scope B) :
    Value B → Report (Macro B)
  | .callable mode body =>
    pure ⟨some body, if mode.captures policy name then some scope.flatten else none⟩
  | _ => do
    Report.note (.uncallableMacro name)
    pure ⟨none, some scope.flatten⟩

/-- The text of a declaration. Tokens are resolved in strings only. -/
def declaration (scope : Scope B) (key : String) (value : Value B) : String :=
  let text := match value with
    | .text content => resolveTokens content key scope.chain
    | other => other.shown
  PropertyName.ofKey key ++ ":" ++ text ++ ";"

namespace Level
variable [Expansion B]

/-- Takes a macro invocation: the expansion of the value is compiled for the same selector, and
what it defines is taken over. -/
def invoke (level : Level B) (below : Option (Compiler B)) (selector : String) (enclosing : Scope B)
    (key : String) (value : Value B) (entry : Macro B) : Report (Level B) := do
  let compiler ← enter below key
  match entry.body with
  | none => Report.fail (.notCallable key)
  | some body =>
    let scope := entry.captured.getD (level.frame :: enclosing)
    return level.absorb (← compiler (Expansion.expand body value) selector scope)

/-- Takes an at-rule. A block is compiled for the same selector and left out if it has no text; a
primitive value makes a statement. -/
def atRule (level : Level B) (below : Option (Compiler B)) (selector : String) (enclosing : Scope B)
    (key : String) : Value B → Report (Level B)
  | .node block => do
    let compiler ← enter below key
    let inner ← compiler block selector (level.frame :: enclosing)
    let text := inner.fragment.render selector
    return if text.isEmpty then level else level.emit (key ++ Fragment.braces text)
  | value =>
    match value.primitive? with
    | some text => pure (level.emit (key ++ " " ++ text ++ ";"))
    | none => do
      Report.note (.callableAtRule key)
      return level

/-- Takes a selector: its block is compiled for the composed selector. -/
def nested (level : Level B) (below : Option (Compiler B)) (selector : String) (enclosing : Scope B)
    (key : String) : Value B → Report (Level B)
  | .node block => do
    let compiler ← enter below key
    let composed := Selector.nest selector key
    let inner ← compiler block composed (level.frame :: enclosing)
    return level.emit (inner.fragment.render composed)
  | _ => do
    Report.note (.blocklessSelector key)
    return level

def step (policy : CapturePolicy) (below : Option (Compiler B)) (selector : String)
    (enclosing : Scope B) (level : Level B) (entry : String × Value B) : Report (Level B) :=
  let (key, value) := entry
  let scope := level.frame :: enclosing
  match Role.of scope key value with
  | .rule =>
    match value with
    | .resolver rule => pure (level.putRule enclosing rule)
    | _ => Report.fail (.notCallable key)
  | .define name => do
    let defined ← definition policy name scope value
    return level.define name defined
  | .invoke entry => level.invoke below selector enclosing key value entry
  | .property => pure (level.declare (declaration scope key value))
  | .atRule => level.atRule below selector enclosing key value
  | .selector => level.nested below selector enclosing key value

/-- Takes the keys of a node in order. Each one defines something, declares a property, or opens a block or an
expansion one level below. -/
def steps (policy : CapturePolicy) (below : Option (Compiler B)) (selector : String)
    (enclosing : Scope B) (level : Level B) (node : Node B) : Report (Level B) :=
  node.foldlM (step policy below selector enclosing) level

end Level

namespace Compiler
variable [Expansion B]

/-- The compiler with the given number of levels below it. -/
def above (policy : CapturePolicy) : Nat → Compiler B
  | 0 => fun node selector enclosing => Level.steps policy none selector enclosing .start node
  | levels + 1 => fun node selector enclosing =>
    Level.steps policy (some (above policy levels)) selector enclosing .start node

/-- How many levels of blocks and expansions may lie below a node. -/
def levels : Nat := 256

end Compiler

section Compiling
variable [Expansion B]

def compile (policy : CapturePolicy) : Compiler B := Compiler.above policy Compiler.levels

/-- The text of a node for a selector. -/
def renderNode (policy : CapturePolicy) (node : Node B) (selector : String) (scope : Scope B) :
    Report String := do
  return (← compile policy node selector scope).fragment.render selector

/-- Compiles a node against a table, which takes over what the node defines if that is exported. A
compilation that fails leaves the table as it was. -/
def Frame.compile (table : Frame B) (policy : CapturePolicy) (exported : Bool) (node : Node B)
    (selector : String) : Frame B × Report Fragment :=
  let report := NestedCss.compile policy node selector [table]
  let after := match report.outcome with
    | .ok level => if exported then table.merge level.frame else table
    | .error _ => table
  (after, do return (← report).fragment)

end Compiling

end NestedCss
