import NestedCss.Text.Hash32

namespace NestedCss.Fingerprint

/-- The digit for a value below 36: the ten figures, then the small letters. -/
def digit (value : Nat) : Char :=
  if value < 10 then Char.ofNat ('0'.toNat + value) else Char.ofNat ('a'.toNat + (value - 10))

/-- The digits of a number in base 36, the highest first; zero has the one digit `0`. -/
def base36 (number : Nat) : List Char :=
  if number < 36 then [digit number] else base36 (number / 36) ++ [digit (number % 36)]
termination_by number

/-- The width of every fingerprint. -/
def width : Nat := 7

/-- Pads digits on the left with underscores up to the width. -/
def pad (digits : List Char) : List Char :=
  List.replicate (width - digits.length) '_' ++ digits

/-- The upper 31 bits of the hash in base 36. The largest such number has six digits, so every
fingerprint starts with an underscore. -/
def ofHash (hash : UInt32) : String :=
  String.ofList (pad (base36 (hash.toNat / 2)))

end NestedCss.Fingerprint

namespace NestedCss

/-- The fingerprint of a compiled text. It names a rule set and tells whether it was seen before, so it has a
fixed width and is a valid class name. -/
def fingerprint (text : String) : String :=
  Fingerprint.ofHash (Hash32.ofString text)

end NestedCss
