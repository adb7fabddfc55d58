import NestedCss.Json.Number
import NestedCss.Json.Tree

namespace NestedCss.Json

/-- The whitespace of JSON. -/
def isBlank (c : Char) : Bool :=
  c == ' ' || c == '\n' || c == '\t' || c == '\x0d'

/-- Removes the whitespace at the start of a text. -/
def skipBlank (chars : List Char) : List Char :=
  chars.dropWhile isBlank

/-- What stands for a character in a string: the character, or a UTF-16 unit as an escape. -/
inductive Piece where
  | char (c : Char)
  | unit (code : Nat)

/-- The value of a hexadecimal digit. -/
def hexDigit (c : Char) : Option Nat :=
  if c.isDigit then some (c.toNat - '0'.toNat)
  else if 'a' ≤ c ∧ c ≤ 'f' then some (c.toNat - 'a'.toNat + 10)
  else if 'A' ≤ c ∧ c ≤ 'F' then some (c.toNat - 'A'.toNat + 10)
  else none

/-- The UTF-16 unit that four hexadecimal digits stand for. -/
def hexUnit (a b c d : Char) : Option Nat := do
  some (((← hexDigit a) * 16 + (← hexDigit b)) * 256 + (← hexDigit c) * 16 + (← hexDigit d))

/-- The character that a letter behind a backslash stands for. -/
def escaped : Char → Option Char
  | '"' => some '"'
  | '\\' => some '\\'
  | '/' => some '/'
  | 'b' => some '\x08'
  | 'f' => some '\x0c'
  | 'n' => some '\n'
  | 'r' => some '\x0d'
  | 't' => some '\t'
  | _ => none

/-- Reads the inside of a string up to the closing quote. Raw control characters are refused. -/
def readPieces : List Char → Option (List Piece × List Char)
  | [] => none
  | '"' :: rest => some ([], rest)
  | '\\' :: 'u' :: a :: b :: c :: d :: rest => do
    let code ← hexUnit a b c d
    let (pieces, rest) ← readPieces rest
    some (.unit code :: pieces, rest)
  | '\\' :: c :: rest => do
    let meant ← escaped c
    let (pieces, rest) ← readPieces rest
    some (.char meant :: pieces, rest)
  | c :: rest =>
    if c.toNat < 0x20 ∨ c = '\\' then none
    else do
      let (pieces, rest) ← readPieces rest
      some (.char c :: pieces, rest)

/-- True for the first unit of a surrogate pair. -/
def isHigh (code : Nat) : Bool := decide (0xD800 ≤ code) && decide (code < 0xDC00)

/-- True for the second unit of a surrogate pair. -/
def isLow (code : Nat) : Bool := decide (0xDC00 ≤ code) && decide (code < 0xE000)

/-- The characters of the pieces. Half of a surrogate pair is refused. -/
def join : List Piece → Option (List Char)
  | [] => some []
  | .char c :: rest => (join rest).map (c :: ·)
  | .unit high :: .unit low :: rest =>
    if isHigh high then
      if isLow low then
        (join rest).map (Char.ofNat (0x10000 + (high - 0xD800) * 0x400 + (low - 0xDC00)) :: ·)
      else none
    else if isLow high then none
    else (join (.unit low :: rest)).map (Char.ofNat high :: ·)
  | .unit code :: rest =>
    if isHigh code || isLow code then none else (join rest).map (Char.ofNat code :: ·)

/-- Reads a string behind its opening quote. -/
def readString (chars : List Char) : Option (String × List Char) := do
  let (pieces, rest) ← readPieces chars
  let content ← join pieces
  some (String.ofList content, rest)

/-- Reads a value at the start of a text, and returns what follows it. -/
abbrev Reader := List Char → Option (Json × List Char)

/-- Reads the word of a literal. -/
def readWord (word : List Char) (value : Json) : Reader := fun chars =>
  if word.isPrefixOf chars then some (value, chars.drop word.length) else none

/-- Reads a value that is neither an array nor an object. -/
def readScalar : Reader
  | '"' :: rest => (readString rest).map fun (content, rest) => (.text content, rest)
  | 'n' :: rest => readWord ['u', 'l', 'l'] .null rest
  | 't' :: rest => readWord ['r', 'u', 'e'] (.bool true) rest
  | 'f' :: rest => readWord ['a', 'l', 's', 'e'] (.bool false) rest
  | chars => (readNumber chars).map fun (x, rest) => (.number x, rest)

/-- Reads the items of an array that is not empty, with its closing bracket. Every item takes at
least one character, so the length of the text is enough as the bound. -/
def readItems (value : Reader) : Nat → List Char → Option (List Json × List Char)
  | 0, _ => none
  | bound + 1, chars => do
    let (item, rest) ← value (skipBlank chars)
    match skipBlank rest with
    | ']' :: rest => some ([item], rest)
    | ',' :: rest =>
      let (items, rest) ← readItems value bound rest
      some (item :: items, rest)
    | _ => none

/-- Reads the members of an object that is not empty, with its closing brace. -/
def readMembers (value : Reader) : Nat → List Char → Option (List (String × Json) × List Char)
  | 0, _ => none
  | bound + 1, chars => do
    let '"' :: rest := skipBlank chars | none
    let (key, rest) ← readString rest
    let ':' :: rest := skipBlank rest | none
    let (item, rest) ← value (skipBlank rest)
    match skipBlank rest with
    | '\x7d' :: rest => some ([(key, item)], rest)
    | ',' :: rest =>
      let (members, rest) ← readMembers value bound rest
      some ((key, item) :: members, rest)
    | _ => none

/-- Reads an array behind its opening bracket. -/
def readArray (value : Reader) (chars : List Char) : Option (Json × List Char) :=
  match skipBlank chars with
  | ']' :: rest => some (.array [], rest)
  | _ => (readItems value chars.length chars).map fun (items, rest) => (.array items, rest)

/-- Reads an object behind its opening brace. -/
def readObject (value : Reader) (chars : List Char) : Option (Json × List Char) :=
  match skipBlank chars with
  | '\x7d' :: rest => some (.object [], rest)
  | _ => (readMembers value chars.length chars).map fun (members, rest) =>
    (.object (Entries.ofList members), rest)

/-- Reads a value in which arrays and objects are nested at most `depth` deep. -/
def readValue : Nat → Reader
  | 0 => readScalar
  | depth + 1 => fun chars =>
    match chars with
    | '[' :: rest => readArray (readValue depth) rest
    | '\x7b' :: rest => readObject (readValue depth) rest
    | chars => readScalar chars

/-- The deepest nesting of arrays and objects that is read. -/
def deepest : Nat := 127

/-- Reads a whole text. Nothing but whitespace may stand around its value. -/
def parse (text : String) : Option Json := do
  let (value, rest) ← readValue deepest (skipBlank text.toList)
  if skipBlank rest = [] then some value else none

end NestedCss.Json
