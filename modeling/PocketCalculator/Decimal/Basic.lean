import PocketCalculator.Text.Basic

/-!
# Decimal fractions

A decimal fraction is a natural number over a power of ten. It has one written form, positional
and without exponent, and the reader of number literals accepts every run of digits around at most
one point.
-/

namespace PocketCalculator

/-- The fraction `coefficient / 10 ^ places`. -/
structure Decimal where
  coefficient : Nat
  places : Nat
deriving DecidableEq, Repr

/-- A power of ten. -/
def tenPow (n : Nat) : Nat :=
  Nat.pow 10 n

namespace Decimal

/-- The fraction whose digits before and after the point are given. -/
def ofDigits (integer fraction : Text) : Decimal :=
  ⟨Nat.ofDigitChars 10 (integer ++ fraction) 0, fraction.length⟩

/-- Reads a literal: digits with at most one point among them, and at least one digit. -/
def ofLiteral? (t : Text) : Option Decimal :=
  let integer := t.takeWhile Char.isDigit
  match t.dropWhile Char.isDigit with
  | [] => if integer.isEmpty then none else some (ofDigits integer [])
  | c :: fraction =>
    if c = '.' ∧ fraction.all Char.isDigit ∧ ¬ (integer ++ fraction).isEmpty then
      some (ofDigits integer fraction)
    else none

/-- The digits of a coefficient, with enough zeros before them for one digit to stand before the
point. -/
def paddedDigits (x : Decimal) : Text :=
  let digits := Nat.toDigits 10 x.coefficient
  List.replicate (x.places + 1 - digits.length) '0' ++ digits

/-- The positional form of a fraction; a whole number has no point. -/
def text (x : Decimal) : Text :=
  if x.places = 0 then
    Nat.toDigits 10 x.coefficient
  else
    let digits := x.paddedDigits
    let point := digits.length - x.places
    digits.take point ++ '.' :: digits.drop point

end Decimal

end PocketCalculator
