namespace NestedCss

/-- The real number that the bits of a 64-bit float stand for. A finite value other than zero has the magnitude
`significand * 2 ^ exponent`. -/
inductive Double where
  | zero
  | infinite (negative : Bool)
  | undefined
  | finite (negative : Bool) (significand : Nat) (exponent : Int)

namespace Double

/-- A power of two. -/
def twoTo (exponent : Nat) : Nat := Nat.pow 2 exponent

/-- A power of ten. -/
def tenTo (exponent : Nat) : Nat := Nat.pow 10 exponent

/-- A significand that has the leading bit, which the bits of a float do not store. -/
def leading : Nat := twoTo 52

/-- The least exponent of a finite float. -/
def leastExponent : Int := -1074

/-- Reads the sign, the exponent field and the fraction of a float. -/
def ofFloat (x : Float) : Double :=
  let bits := x.toBits.toNat
  let negative := decide (twoTo 63 ≤ bits)
  let field : Nat := bits / leading % 2048
  let fraction : Nat := bits % leading
  if field = 2047 then if fraction = 0 then infinite negative else undefined
  else if field = 0 then
    if fraction = 0 then zero else finite negative fraction leastExponent
  else finite negative (leading + fraction) (field + leastExponent - 1)

/-- The quotient rounded to the nearest number; a half goes to the even neighbour. -/
def roundHalfEven (numerator denominator : Nat) : Nat :=
  let quotient := numerator / denominator
  let twice := 2 * (numerator % denominator)
  if twice < denominator then quotient
  else if denominator < twice then quotient + 1
  else quotient + quotient % 2

/-- A fraction divided by a power of two, as a numerator and a denominator. -/
def halve (numerator denominator : Nat) (exponent : Int) : Nat × Nat :=
  (numerator * twoTo (-exponent).toNat, denominator * twoTo exponent.toNat)

/-- The exponent at which a positive fraction has 53 bits before the point, or the least one. -/
def exponentOf (numerator denominator : Nat) : Int :=
  let estimate : Int := numerator.log2 - denominator.log2 - 53
  let (above, below) := halve numerator denominator estimate
  max leastExponent (if 2 * leading * below ≤ above then estimate + 1 else estimate)

/-- The float nearest to a fraction; a tie goes to the even significand, and what is too large
becomes infinite. The significand is added to the exponent field, so that its leading bit, or a
carry from rounding, moves the field up by one. -/
def nearest (negative : Bool) (numerator denominator : Nat) : Float :=
  let magnitude :=
    if numerator = 0 then 0
    else
      let exponent := exponentOf numerator denominator
      let (above, below) := halve numerator denominator exponent
      (exponent - leastExponent).toNat * leading + roundHalfEven above below
  let bounded := min magnitude (2047 * leading)
  Float.ofBits ((if negative then twoTo 63 else 0) + bounded).toUInt64

end Double

end NestedCss
