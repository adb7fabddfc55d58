import Mathlib
import NestedCss.CommandLine
import NestedCss.Proofs.GatheringSession
import NestedCss.Style.Template

namespace NestedCss.CommandLine

namespace Progress

variable {α β γ : Type}

end Progress

variable {B : Type}

variable [Expansion B]

/-- The content of a file, if it is there and can be read. -/
def content? {α : Type} (files : Files) (read : String → Except LoadError α) (path : String) : Option α :=
  (files path).bind fun text => (read text).toOption

/-- What a file of a rule set offers to the filter of an instance that compiles in the given way. -/
def offer? (files : Files) (compile : Node B → String → Report String) (className : Option String) (path : String) :
    Option Offer := do
  let node ← content? files Node.fromText path
  (compile node (className.getD Instance.placeholder)).outcome.toOption.map (Offer.ofStyle className)

variable {s : Session B} {compile : Node B → String → Report String} {earlier : List String} {text : String}

end NestedCss.CommandLine
