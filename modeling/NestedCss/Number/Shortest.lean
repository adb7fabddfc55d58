import NestedCss.Number.Double

namespace NestedCss

/-- The positive number `significand * 10 ^ exponent`. -/
structure Decimal where
  significand : Nat
  exponent : Int

namespace Decimal

/-- The reals that round to a positive float, in units of `2 ^ scale`. Its ends belong to it
where the significand of the float is even. -/
structure Interval where
  lower : Nat
  value : Nat
  upper : Nat
  scale : Int
  closed : Bool

/-- Half the way to each neighbour of the float, in quarters of its last place. Below a power of two
the floats lie twice as close. -/
def Interval.around (significand : Nat) (exponent : Int) : Interval where
  lower := 4 * significand -
    if significand = Double.leading ∧ Double.leastExponent < exponent then 1 else 2
  value := 4 * significand
  upper := 4 * significand + 2
  scale := exponent - 2
  closed := significand % 2 = 0

namespace Interval

/-- The factors by which a number of units of the interval and a number of units of `10 ^ exponent`
are multiplied to be compared. -/
def factors (i : Interval) (exponent : Int) : Nat × Nat :=
  (Double.twoTo i.scale.toNat * Double.tenTo (-exponent).toNat,
    Double.twoTo (-i.scale).toNat * Double.tenTo exponent.toNat)

/-- True if `count * 10 ^ exponent` lies in the interval. -/
def contains (i : Interval) (count : Nat) (exponent : Int) : Bool :=
  let (here, there) := i.factors exponent
  let point := count * there
  if i.closed then decide (i.lower * here ≤ point) && decide (point ≤ i.upper * here)
  else decide (i.lower * here < point) && decide (point < i.upper * here)

/-- The multiple of `10 ^ exponent` nearest to the value of the interval among its two neighbours
on that grid that lie in the interval. -/
def onGrid (i : Interval) (exponent : Int) : Option Decimal :=
  let (here, there) := i.factors exponent
  let below := i.value * here / there
  let roundsUp := decide (there ≤ 2 * (i.value * here % there))
  match i.contains below exponent, i.contains (below + 1) exponent with
  | true, true => some ⟨if roundsUp then below + 1 else below, exponent⟩
  | true, false => some ⟨below, exponent⟩
  | false, true => some ⟨below + 1, exponent⟩
  | false, false => none

/-- The exponent of the first digit of the value. The smallest float has it above `-400`. -/
def firstExponent (i : Interval) : Int :=
  let (here, there) := i.factors (-400)
  (Nat.toDigits 10 (i.value * here / there)).length - 1 - 400

end Interval

/-- A decimal without zeros at the end of its significand. -/
def strip (significand : Nat) (exponent : Int) : Decimal :=
  if 0 < significand ∧ significand % 10 = 0 then strip (significand / 10) (exponent + 1)
  else ⟨significand, exponent⟩
termination_by significand

/-- The shortest decimal of a float: of those with the fewest digits that round to it, the one nearest to its
value, and of two equally near ones the larger. Seventeen digits always suffice. -/
def shortest (significand : Nat) (exponent : Int) : Decimal :=
  let i := Interval.around significand exponent
  let first := i.firstExponent
  match (List.range 17).findSome? fun (digits : Nat) => i.onGrid (first - digits) with
  | some found => strip found.significand found.exponent
  | none => ⟨significand, exponent⟩

end Decimal

end NestedCss
