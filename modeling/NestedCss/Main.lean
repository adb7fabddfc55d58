import NestedCss.CommandLine
import NestedCss.Style.Template

namespace NestedCss.CommandLine

/-- The text of a file, unless it is missing or not UTF-8. -/
def readText (path : String) : IO (Option String) := do
  try
    return some (← IO.FS.readFile path)
  catch _ =>
    return none

end NestedCss.CommandLine

open NestedCss

/-- Runs the program on its arguments. -/
def main (arguments : List String) : IO UInt32 := do
  let contents ← arguments.mapM fun path => return (path, ← CommandLine.readText path)
  let files : CommandLine.Files := fun path => (contents.lookup path).bind id
  let outcome := CommandLine.run Closure "ddcss" arguments files
  for message in outcome.messages do
    IO.eprint message.line
  IO.print outcome.output
  match outcome.failure with
  | none => return 0
  | some failure =>
    IO.eprint failure.line
    return outcome.code.toUInt32
