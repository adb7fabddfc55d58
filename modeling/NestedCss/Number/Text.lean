import NestedCss.Number.Shortest

namespace NestedCss.Number

/-- Which numbers are written without an exponent: those whose first digit has an exponent from
`least` to `greatest`. -/
structure Positional where
  least : Int
  greatest : Int

/-- From `0.000001` up to twenty-one digits before the point. -/
def positional : Positional := ⟨-6, 20⟩

/-- Digits with a point behind the first `count` of them, and zeros where digits are missing. -/
def placePoint (digits : List Char) (count : Int) : List Char :=
  if count ≤ 0 then '0' :: '.' :: List.replicate (-count).toNat '0' ++ digits
  else if digits.length ≤ count then digits ++ List.replicate (count - digits.length).toNat '0'
  else digits.take count.toNat ++ '.' :: digits.drop count.toNat

/-- The exponent part of a number; a positive exponent has its sign. -/
def exponentPart (exponent : Int) : List Char :=
  'e' :: (if exponent < 0 then '-' else '+') :: Nat.toDigits 10 exponent.natAbs

/-- A positive decimal, with an exponent if it is very large or very small. -/
def magnitude (d : Decimal) : List Char :=
  let digits := Nat.toDigits 10 d.significand
  let first := d.exponent + digits.length - 1
  if positional.least ≤ first ∧ first ≤ positional.greatest then placePoint digits (first + 1)
  else (if digits.length = 1 then digits else placePoint digits 1) ++ exponentPart first

/-- How a number is written. Zero has no sign. -/
def text (x : Float) : String :=
  match Double.ofFloat x with
  | .zero => "0"
  | .infinite negative => if negative then "-Infinity" else "Infinity"
  | .undefined => "NaN"
  | .finite negative significand exponent =>
    let digits := magnitude (Decimal.shortest significand exponent)
    String.ofList (if negative then '-' :: digits else digits)

/-- The value of a list of decimal digits. -/
def natOfDigits (digits : List Char) : Nat :=
  digits.foldl (fun value d => 10 * value + (d.toNat - '0'.toNat)) 0

/-- Infinity of either sign. -/
def infinity (negative : Bool) : Float :=
  if negative then -1.0 / 0.0 else 1.0 / 0.0

/-- The float nearest to `significand * 10 ^ exponent`. Outside the range of floats the answer is
settled by the number of digits, so that no large power is computed. -/
def ofDecimal (negative : Bool) (significand : Nat) (exponent : Int) : Float :=
  let first := exponent + (Nat.toDigits 10 significand).length
  if significand = 0 ∨ first < -330 then Double.nearest negative 0 1
  else if 310 < first then infinity negative
  else
    Double.nearest negative (significand * Double.tenTo exponent.toNat)
      (Double.tenTo (-exponent).toNat)

/-- Splits off a sign; true is minus. -/
def readSign : List Char → Bool × List Char
  | '-' :: rest => (true, rest)
  | '+' :: rest => (false, rest)
  | rest => (false, rest)

/-- The value of the digits of an exponent. Once it has reached `0x10000`, which is far beyond every
float, the digits that follow are passed over. -/
def exponentOfDigits (digits : List Char) : Nat :=
  digits.foldl (fun value d =>
    if value < 0x10000 then 10 * value + (d.toNat - '0'.toNat) else value) 0

/-- Reads an exponent part up to the end of the text. No text is the exponent zero. -/
def readExponent : List Char → Option Int
  | [] => some 0
  | c :: rest =>
    let (negative, digits) := readSign rest
    if (c = 'e' ∨ c = 'E') ∧ digits ≠ [] ∧ digits.all Char.isDigit then
      some (if negative then -(exponentOfDigits digits : Int) else exponentOfDigits digits)
    else none

/-- Reads digits with an optional point and exponent. At least one digit stands before the
exponent. -/
def readUnsigned (negative : Bool) (chars : List Char) : Option Float :=
  let whole := chars.takeWhile Char.isDigit
  let rest := chars.dropWhile Char.isDigit
  let (fraction, rest) := match rest with
    | '.' :: behind => (behind.takeWhile Char.isDigit, behind.dropWhile Char.isDigit)
    | _ => ([], rest)
  if whole = [] ∧ fraction = [] then none
  else (readExponent rest).map fun exponent =>
    ofDecimal negative (natOfDigits (whole ++ fraction)) (exponent - fraction.length)

/-- The numbers that are written as words, in letters of either case. -/
def readWord (negative : Bool) (chars : List Char) : Option Float :=
  let word := String.ofList (chars.map Char.toLower)
  if word = "inf" ∨ word = "infinity" then some (infinity negative)
  else if word = "nan" then some (0.0 / 0.0)
  else none

/-- Reads a whole text as a number: an optional sign, then digits or a word. -/
def read (chars : List Char) : Option Float :=
  let (negative, rest) := readSign chars
  (readUnsigned negative rest).orElse fun _ => readWord negative rest

end NestedCss.Number
