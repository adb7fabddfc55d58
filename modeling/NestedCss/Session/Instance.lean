import NestedCss.Compilation.Level
import NestedCss.Session.Filter
import NestedCss.Text.Fingerprint

namespace NestedCss

variable {B : Type}

/-- A compiler with its own table of macros and token rules. -/
structure Instance (B : Type) where
  /-- The selector of global styles. -/
  root : String
  policy : CapturePolicy
  table : Frame B
  filter : Filter

/-- What a rule set comes to: the name of its class, the text to submit unless the filter holds it
back, and the filter afterwards. -/
structure Styled where
  className : String
  text : Option String
  filter : Filter

/-- Writes a class name wherever the placeholder `.$&` stands. -/
def nameClass (className : List Char) : List Char → List Char
  | [] => []
  | '.' :: '$' :: '&' :: rest => '.' :: (className ++ nameClass className rest)
  | c :: rest => c :: nameClass className rest

namespace Instance

/-- The selector of a rule set that has no class name yet. -/
def placeholder : String := ".$&"

section Compiling
variable [Expansion B]

/-- The text of a node for a selector. -/
def compile (i : Instance B) (node : Node B) (selector : String) : Report String :=
  renderNode i.policy node selector [i.table]

/-- Takes over what a global node defines, and returns its text. -/
def addGlobal (i : Instance B) (node : Node B) : Instance B × Report String :=
  let (table, report) := i.table.compile i.policy true node i.root
  ({ i with table }, do return (← report).render i.root)

/-- Compiles a rule set. A rule set without a class name is named after the fingerprint of its text
for the placeholder. -/
def style (i : Instance B) (node : Node B) (className : Option String) : Report Styled := do
  match className with
  | some name =>
    let text ← i.compile node name
    let (passed, filter) := i.filter.accept (fingerprint text) node
    return ⟨name, if passed then some text else none, filter⟩
  | none =>
    let text ← i.compile node placeholder
    let name := fingerprint text
    let (passed, filter) := i.filter.accept name node
    let named := String.ofList (nameClass name.toList text.toList)
    return ⟨name, if passed then some named else none, filter⟩

end Compiling

end Instance

end NestedCss
