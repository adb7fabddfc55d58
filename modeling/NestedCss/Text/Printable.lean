namespace NestedCss.Printable

/-- Where in an escape sequence a text is. -/
inductive Mode where
  | ground
  /-- Behind the escape character. -/
  | escape
  /-- In a sequence of intermediate characters and one final character. -/
  | intermediate
  /-- In a control sequence, which one final character ends. -/
  | sequence
  /-- At the start of a device control string. -/
  | device
  /-- Behind parameters of a device control string. -/
  | deviceParameter
  /-- Behind intermediate characters of a device control string. -/
  | deviceIntermediate
  /-- In the text of a control string. -/
  | string
  /-- In an operating system command, which the bell ends. -/
  | command
  deriving DecidableEq

/-- True of characters from `low` to `high`. -/
def within (low high : Nat) (c : Char) : Bool :=
  low ≤ c.toNat && c.toNat ≤ high

/-- The control characters that are shown: tab, line feed, form feed and carriage return. -/
def isSpacing (c : Char) : Bool :=
  c == '\t' || c == '\n' || c == '\x0c' || c == '\x0d'

/-- A character that is shown outside of sequences. -/
def isPlain (c : Char) : Bool :=
  isSpacing c || 0x20 ≤ c.toNat && c.toNat ≠ 0x7f

/-- The byte that ends a control string is among the bytes of the character. -/
def holdsTerminator (c : Char) : Bool :=
  0x80 ≤ c.toNat && (String.utf8EncodeChar c).contains 0x9c

/-- The mode behind a character of the mode's own sequence. -/
def Mode.step (mode : Mode) (c : Char) : Mode :=
  match mode with
  | .ground => .ground
  | .escape =>
    if within 0x20 0x2f c then .intermediate
    else if c = '[' then .sequence
    else if c = ']' then .command
    else if c = 'P' then .device
    else if c = 'X' ∨ c = '^' ∨ c = '_' then .string
    else if within 0x30 0x7e c then .ground
    else .escape
  | .intermediate => if within 0x30 0x7e c then .ground else .intermediate
  | .sequence => if within 0x40 0x7e c then .ground else .sequence
  | .device =>
    if within 0x20 0x2f c then .deviceIntermediate
    else if within 0x30 0x3f c then .deviceParameter
    else if within 0x40 0x7e c then .string
    else .device
  | .deviceParameter =>
    if within 0x20 0x2f c then .deviceIntermediate
    else if within 0x3c 0x7e c then .string
    else .deviceParameter
  | .deviceIntermediate => if within 0x30 0x7e c then .string else .deviceIntermediate
  | .string => if holdsTerminator c then .ground else .string
  | .command => if c = '\x07' then .ground else .command

/-- The mode behind a character that is not shown. Cancel and substitute end every sequence, and
the escape character starts one anew. -/
def Mode.next (mode : Mode) (c : Char) : Mode :=
  if c = '\x18' ∨ c = '\x1a' then .ground
  else if c = '\x1b' then .escape
  else mode.step c

/-- True if a character is shown. Sequences let spacing through, and control strings nothing. -/
def Mode.shows (mode : Mode) (c : Char) : Bool :=
  match mode with
  | .ground => isPlain c
  | .escape | .intermediate | .sequence => isSpacing c
  | .device | .deviceParameter | .deviceIntermediate | .string | .command => false

/-- Takes out what is not shown. A shown character starts a run of shown characters up to the next
control character, and a sequence that the run has broken goes on behind it, unless a character
beyond ASCII was in the run. -/
def stripFrom (mode : Mode) (shown : Bool) : List Char → List Char
  | [] => []
  | c :: rest =>
    if (if shown then isPlain c else mode.shows c) then
      c :: stripFrom (if 0x80 ≤ c.toNat then .ground else mode) true rest
    else stripFrom (mode.next c) false rest

/-- The part of a text that a terminal shows, without control characters and escape sequences. -/
def strip (text : String) : String :=
  String.ofList (stripFrom .ground true text.toList)

end NestedCss.Printable
