import NestedCss.Number.Double

namespace NestedCss.Json

/-- The largest value that the digits of a number may reach. -/
def largestWord : Nat := Double.twoTo 64 - 1

/-- Appends digits to a number while it fits into a word, and returns how many were appended. -/
def appendDigits (word : Nat) : List Char → Nat × Nat
  | [] => (word, 0)
  | d :: rest =>
    let next := 10 * word + (d.toNat - '0'.toNat)
    if largestWord < next then (word, 0)
    else
      let (full, count) := appendDigits next rest
      (full, count + 1)

/-- The float of a power of ten. -/
def powerOfTen (exponent : Nat) : Float :=
  Double.nearest false (Double.tenTo exponent) 1

/-- The largest exponent of a power of ten that a float can hold. -/
def largestPower : Nat := 308

/-- Multiplies or divides a float by a power of ten. Very small exponents are taken in several
steps; a result that is not finite is refused. -/
def scale (x : Float) (exponent : Int) : Option Float :=
  if exponent < -(largestPower : Int) then
    if x == 0 then some x else scale (x / powerOfTen largestPower) (exponent + largestPower)
  else if exponent < 0 then some (x / powerOfTen (-exponent).toNat)
  else if exponent ≤ largestPower then
    let scaled := x * powerOfTen exponent.toNat
    if scaled.isInf then none else some scaled
  else if x == 0 then some x
  else none
termination_by (-exponent).toNat
decreasing_by
  have : largestPower = 308 := rfl
  omega

/-- Splits off the digits at the start of a text. -/
def takeDigits (chars : List Char) : List Char × List Char :=
  (chars.takeWhile Char.isDigit, chars.dropWhile Char.isDigit)

/-- Reads a point and at least one digit, if the point is there. -/
def readFraction : List Char → Option (List Char × List Char)
  | '.' :: rest =>
    let (digits, rest) := takeDigits rest
    if digits = [] then none else some (digits, rest)
  | rest => some ([], rest)

/-- Reads an exponent mark, an optional sign and at least one digit, if the mark is there. -/
def readExponent : List Char → Option (Int × List Char)
  | c :: rest =>
    if c = 'e' ∨ c = 'E' then
      let (negative, rest) := match rest with
        | '-' :: rest => (true, rest)
        | '+' :: rest => (false, rest)
        | rest => (false, rest)
      let (digits, rest) := takeDigits rest
      if digits = [] then none
      else
        let size : Nat := digits.foldl (fun value d => 10 * value + (d.toNat - '0'.toNat)) 0
        some (if negative then -(size : Int) else size, rest)
    else some (0, c :: rest)
  | [] => some (0, [])

/-- Reads the digits before the point. A zero stands alone. -/
def readWhole : List Char → Option (List Char × List Char)
  | '0' :: rest =>
    match rest with
    | d :: _ => if d.isDigit then none else some (['0'], rest)
    | [] => some (['0'], rest)
  | chars =>
    let (digits, rest) := takeDigits chars
    if digits = [] then none else some (digits, rest)

/-- Reads a number at the start of a text. Digits before the point that do not fit into the word raise the
exponent, and those behind it are ignored. The float is the nearest one for every number with at most fifteen
digits and a small exponent; beyond that it may differ from it in the last place. -/
def readNumber (chars : List Char) : Option (Float × List Char) := do
  let (negative, chars) := match chars with
    | '-' :: rest => (true, rest)
    | rest => (false, rest)
  let (whole, chars) ← readWhole chars
  let (fraction, chars) ← readFraction chars
  let (exponent, chars) ← readExponent chars
  let (word, used) := appendDigits 0 whole
  let (word, places) := appendDigits word fraction
  let dropped := whole.length - used
  let x ← scale (Double.nearest false word 1) (exponent + dropped - places)
  some (if negative then -x else x, chars)

end NestedCss.Json
