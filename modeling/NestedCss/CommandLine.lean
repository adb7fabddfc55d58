import NestedCss.Session.Basic
import NestedCss.Style.Loading
import NestedCss.Text.Printable

namespace NestedCss.CommandLine

/-- What the arguments ask for. -/
structure Invocation where
  /-- The selector of global styles, if it is not the default. -/
  root : Option String
  /-- The class selector of every rule set, if they are to have the same. -/
  className : Option String
  globals : String
  styles : List String
  deriving DecidableEq

/-- Why the arguments are refused. -/
inductive ArgumentError where
  | helpRequested
  | noValue (option : String)
  | noGlobals
  | unknownOption
  deriving DecidableEq

def ArgumentError.message : ArgumentError → String
  | helpRequested => "Help requested"
  | noValue option => "the '" ++ option ++ "' option doesn't have an associated value"
  | noGlobals => "Missing global styles argument"
  | unknownOption => "Unknown option passed"

/-- True if the usage is printed with an error. -/
def ArgumentError.showsUsage : ArgumentError → Bool
  | noValue _ => false
  | _ => true

/-- Takes the first occurrence of an option out of the arguments, together with the argument behind
it. -/
def takeOption (option : String) : List String → Except ArgumentError (Option String × List String)
  | [] => .ok (none, [])
  | argument :: rest =>
    if argument = option then
      match rest with
      | [] => .error (.noValue option)
      | value :: others => .ok (some value, others)
    else do
      let (value, others) ← takeOption option rest
      return (value, argument :: others)

/-- Reads the arguments. Options may stand anywhere, and one `--` is passed over. -/
def Invocation.ofArguments (arguments : List String) : Except ArgumentError Invocation := do
  if arguments.any fun argument => argument = "-h" || argument = "--help" then
    throw .helpRequested
  let (root, arguments) ← takeOption "--root" arguments
  let (className, arguments) ← takeOption "--class" arguments
  match arguments.erase "--" with
  | [] => throw .noGlobals
  | globals :: styles =>
    if styles.any fun path => path.toList.head? = some '-' then throw .unknownOption
    return ⟨root, className, globals, styles⟩

def usage (program : String) : String :=
  "ddcss 0.1.0\n" ++
  "Usage: " ++ program ++ " [options] <globals.json> [styles.json ...]\n\n" ++
  "Compiles each styles file against the global styles and prints the\n" ++
  "resulting stylesheet.\n\n" ++
  "Options:\n" ++
  "    --root: Selector for global styles (default: :root)\n" ++
  "    --class: Class selector for every styles file (default: generated)\n\n"

inductive Failure where
  | arguments (error : ArgumentError)
  /-- A file cannot be read, or does not hold a style description. -/
  | unreadable (path : String)
  | session (error : SessionError)
  deriving DecidableEq

def Failure.message : Failure → String
  | arguments error => error.message
  | unreadable path => "could not load '" ++ path ++ "'"
  | session (.compile error) => error.message
  | session (.delivery error) => error.message
  | session .gone => ""

/-- A failure as it is shown, with a line break behind it. -/
def Failure.line (failure : Failure) : String :=
  "Error: " ++ failure.message ++ "\n"

/-- A message for the user on the way. -/
inductive Message where
  | info (text : String)
  | warning (text : String)
  deriving DecidableEq

/-- The level and the text of a message. Lines but the first are indented. -/
def Message.text : Message → String
  | info text => "INFO " ++ indent text
  | warning text => "WARN " ++ indent text
where
  /-- Four blanks stand behind each line break. -/
  indent (text : String) : String :=
    String.ofList (text.toList.flatMap fun c => if c = '\n' then "\n    ".toList else [c])

/-- A message as it is shown, with a line break behind it. Nothing is left that a terminal obeys, and
a sequence that the text leaves open takes the line break with it. -/
def Message.line (message : Message) : String :=
  Printable.strip (message.text ++ "\n")

/-- A run that goes on as long as nothing fails. Messages are kept also if something does. -/
structure Progress (α : Type) where
  messages : List Message
  result : Except Failure α

namespace Progress
variable {α β : Type}

/-- Goes on with the result, if there is one, and joins the messages. -/
def andThen (first : Progress α) (next : α → Progress β) : Progress β :=
  match first.result with
  | .error e => ⟨first.messages, .error e⟩
  | .ok a =>
    let rest := next a
    ⟨first.messages ++ rest.messages, rest.result⟩

instance : Monad Progress where
  pure a := ⟨[], .ok a⟩
  bind := andThen

def say (message : Message) : Progress Unit := ⟨[message], .ok ()⟩

def lift (result : Except Failure α) : Progress α := ⟨[], result⟩

end Progress

/-- The text of a file, if it can be read. -/
abbrev Files := String → Option String

section Running
variable {B : Type} [Expansion B]

def load {α : Type} (files : Files) (read : String → Except LoadError α) (path : String) :
    Progress α :=
  match (files path).map read with
  | some (.ok content) => .lift (.ok content)
  | _ => .lift (.error (.unreadable path))

/-- Takes a step of the session, and shows the warnings that it has added to the journal. -/
def work {α : Type} (before : Session B) (step : Session B × Except SessionError α) :
    Progress (Session B × α) :=
  let (after, result) := step
  let entries := after.dispatch.journal.drop before.dispatch.journal.length
  ⟨(Session.warnings entries).map .warning, (result.mapError .session).map fun a => (after, a)⟩

/-- What the only instance of a run is set up with. -/
def setup (root : Option String) (globals : List (Node B)) : Setup B :=
  ⟨globals, root.getD Setup.usualRoot, default, .own, .sheet, Filter.initial⟩

def addStyle (files : Files) (className : Option String) (s : Session B) (path : String) :
    Progress (Session B) := do
  let node ← load files Node.fromText path
  let s ← match s.find? 0 with
    | some i => do
      let (s, name) ← work s (s.style 0 i node className)
      .say (.info (path ++ " => " ++ name))
      pure s
    | none => .lift (.error (.session .gone))
  return s

/-- Compiles the file of global styles and all files of rule sets, and returns the elements of the style sheet:
one batch, once all of them were compiled. -/
def compileFiles (files : Files) (invocation : Invocation) : Progress (List String) := do
  let globals ← load files (Node.listFromText (B := B)) invocation.globals
  .say (.info ("Loaded " ++ globals.length.repr ++ " global style objects"))
  let s := Session.initial
  let (s, ()) ← work s (s.create (setup invocation.root globals))
  let s ← invocation.styles.foldlM (addStyle files invocation.className) s
  let (s, _) ← work s (s.run 0)
  return s.elements s.dispatch.journal

end Running

/-- What a run of the program leaves behind. -/
structure Outcome where
  code : Nat
  output : String
  messages : List Message
  failure : Option Failure

/-- All that is shown beside the output: the messages, and the failure as the last. -/
def Outcome.report (outcome : Outcome) : String :=
  String.join (outcome.messages.map Message.line) ++ (outcome.failure.map Failure.line).getD ""

def run (B : Type) [Expansion B] (program : String) (arguments : List String) (files : Files) :
    Outcome :=
  match Invocation.ofArguments arguments with
  | .error e => ⟨1, if e.showsUsage then usage program else "", [], some (.arguments e)⟩
  | .ok invocation =>
    let progress := compileFiles (B := B) files invocation
    match progress.result with
    | .error e => ⟨1, "", progress.messages, some e⟩
    | .ok elements => ⟨0, String.join (elements.map (· ++ "\n")), progress.messages, none⟩

end NestedCss.CommandLine
