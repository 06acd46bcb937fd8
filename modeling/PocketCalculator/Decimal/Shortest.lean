import PocketCalculator.Decimal.Double

/-!
# The shortest decimal of a double

A double is shown by the fewest digits that read back as the same double, and by the nearest such
digits; the larger one wins an exact tie. Numbers are written positionally whatever their size,
zero has no sign, and infinities and NaN have no decimal.
-/

namespace PocketCalculator

namespace Decimal

/-- A fraction without zeros at the end of its decimal places. -/
def reduced (coefficient : Nat) : Nat → Decimal
  | 0 => ⟨coefficient, 0⟩
  | places + 1 =>
    if coefficient % 10 = 0 then reduced (coefficient / 10) places else ⟨coefficient, places + 1⟩

/-- The neighbours of `num / den` among the multiples of a power of ten, made by `build`; the
nearer one first, the upper one first in a tie. -/
def neighbours (num den : Nat) (build : Nat → Decimal) : List Decimal :=
  let lower := num / den
  if 2 * (num % den) < den then [build lower, build (lower + 1)]
  else [build (lower + 1), build lower]

/-- The number of digits before the point of a positive magnitude in units, and minus the number
of zeros after the point when there are none. No double is smaller than `10 ^ -400`. -/
def leadingPlace (units : Nat) : Int :=
  (Nat.toDigits 10 (units * tenPow 400 / Double.one)).length - 400

/-- The decimals of `count` digits on both sides of a magnitude in units. The upper one can be the
next power of ten, with a zero too many. -/
def candidates (units count : Nat) : List Decimal :=
  let place := leadingPlace units
  if count ≤ place then
    let step := tenPow (place - count).toNat
    neighbours units (Double.one * step) fun n => ⟨n * step, 0⟩
  else
    let places := (count - place).toNat
    neighbours (units * tenPow places) Double.one fun n => reduced n places

/-- The exact decimal of a magnitude in units. -/
def ofUnits (units : Nat) : Decimal :=
  ⟨units * Nat.pow 5 1074, 1074⟩

/-- The shortest decimal that reads back as the finite magnitude with the given bits. Seventeen
digits are always enough. -/
def shortest (bits : Nat) : Decimal :=
  let units := Double.units bits
  ((List.range' 1 17).findSome? fun count =>
    (candidates units count).find? fun x => x.nearestBits = bits).getD (ofUnits units)

end Decimal

/-- The decimal text of a double, if it is finite. -/
def doubleText? (x : Float) : Option Text :=
  let bits := x.toBits.toNat
  let magnitude := bits % Double.signBit
  if Double.infinity ≤ magnitude then none
  else if magnitude = 0 then some ['0']
  else
    let digits := (Decimal.shortest magnitude).text
    some (if bits < Double.signBit then digits else '-' :: digits)

end PocketCalculator
