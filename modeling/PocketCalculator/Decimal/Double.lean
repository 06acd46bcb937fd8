import PocketCalculator.Decimal.Basic

/-!
# Decimal fractions and doubles

The magnitude of a double is a number of units of `2 ^ -1074`, the smallest one. A decimal
fraction is rounded to the nearest double, and between two neighbours at the same distance to the
one whose last bit is zero. All of it is exact arithmetic on natural numbers.
-/

namespace PocketCalculator

/-- The quotient rounded to the nearest natural number, a half to the even one. -/
def roundHalfEven (num den : Nat) : Nat :=
  let quotient := num / den
  let twice := 2 * (num % den)
  if twice < den then quotient
  else if den < twice then quotient + 1
  else quotient + quotient % 2

namespace Double

/-- The number of units in `1`. -/
def one : Nat := 1 <<< 1074

/-- The bits of positive infinity; all smaller numbers are the bits of a finite magnitude. -/
def infinity : Nat := 0x7ff0000000000000

/-- The sign bit. -/
def signBit : Nat := 0x8000000000000000

/-- The leading bit of a magnitude of 53 bits. It is not among the 52 bits of the fraction, and the
lowest bit of the exponent takes its place. -/
def hiddenBit : Nat := 0x10000000000000

/-- The magnitude, in units, of the finite double with the given bits below the sign. -/
def units (bits : Nat) : Nat :=
  let exponent := bits / hiddenBit
  let fraction := bits % hiddenBit
  if exponent = 0 then fraction else (hiddenBit + fraction) <<< (exponent - 1)

/-- The bits of the double nearest to `num / den` units. When rounding reaches the next power of
two, the carry into the exponent is the right one; past the largest double the result is at
least `infinity`. -/
def nearest (num den : Nat) : Nat :=
  let dropped := (num / den).log2 + 1 - 53
  dropped * hiddenBit + roundHalfEven num (den <<< dropped)

end Double

namespace Decimal

/-- The bits of the double nearest to a fraction. -/
def nearestBits (x : Decimal) : Nat :=
  Double.nearest (x.coefficient * Double.one) (tenPow x.places)

/-- The double nearest to a fraction, if it is finite. -/
def toFloat? (x : Decimal) : Option Float :=
  if x.nearestBits < Double.infinity then some (Float.ofBits x.nearestBits.toUInt64) else none

end Decimal

end PocketCalculator
