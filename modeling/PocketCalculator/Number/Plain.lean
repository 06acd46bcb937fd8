import PocketCalculator.Decimal.Shortest
import PocketCalculator.Number.Grouping

/-!
# Between displayed numbers and plain ones

A displayed formula becomes an expression by dropping what only the display has: the grouping,
the decimal separator of the locale and the glyphs. A value becomes a readout the other way round.
-/

namespace PocketCalculator

/-- What the readout shows instead of a value that is not finite or does not exist. -/
def errorMarker : Text := "Error".toList

namespace Separators

/-- The character of an expression for one of a displayed formula. -/
def plainChar (s : Separators) (c : Char) : Char :=
  if c = s.decimal then '.'
  else if c = '×' then '*'
  else if c = '÷' then '/'
  else c

/-- The expression that a displayed formula stands for. -/
def plain (s : Separators) (formula : Text) : Text :=
  (s.ungroup formula).map s.plainChar

/-- The digits of a value without grouping, with the decimal separator of the locale. -/
def digits (s : Separators) (value : Float) : Text :=
  match doubleText? value with
  | none => errorMarker
  | some t => t.map fun c => if c = '.' then s.decimal else c

/-- The readout of a value. -/
def readout (s : Separators) (value : Float) : Text :=
  s.group (s.digits value)

end Separators

end PocketCalculator
