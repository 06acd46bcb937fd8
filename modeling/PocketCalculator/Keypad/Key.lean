import PocketCalculator.Keypad.Operator
import PocketCalculator.Text.Basic

/-!
# Keys

What can be pressed on the calculator. A history result that is picked up again counts as a key
too: it replaces the formula.
-/

namespace PocketCalculator

/-- A key press. -/
inductive Key where
  | digit (d : Fin 10)
  | point
  | open
  | close
  | operator (op : Operator)
  /-- Starts a negative number. -/
  | negate
  | equals
  | backspace
  | reset
  /-- Replaces the formula. -/
  | load (number : Text)
deriving DecidableEq, Repr

namespace Key

/-- The key that a character of a script stands for. -/
def ofChar? (c : Char) : Option Key :=
  if c.isDigit then some (.digit (Fin.ofNat 10 (c.toNat - '0'.toNat)))
  else
    match Operator.ofChar? c with
    | some op => some (.operator op)
    | none =>
      if c = '.' ∨ c = ',' then some .point
      else if c = '(' then some .open
      else if c = ')' then some .close
      else if c = '=' then some .equals
      else if c = '<' then some .backspace
      else if c = 'C' then some .reset
      else if c = '~' then some .negate
      else none

end Key

end PocketCalculator
