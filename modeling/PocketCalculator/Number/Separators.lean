import PocketCalculator.Keypad.Operator
import PocketCalculator.Text.Letter

/-!
# Separators

The two characters that a locale puts into numbers: one before the fraction and one between the
groups of the integer part. The functions on numbers take any pair; a configuration has to be
acceptable.
-/

namespace PocketCalculator

/-- The separators of displayed numbers. -/
structure Separators where
  decimal : Char := '.'
  grouping : Char := ','
deriving DecidableEq, Repr, Inhabited

/-- Why a pair of separators is refused. -/
inductive SeparatorError where
  /-- Both are the same character. -/
  | equal (c : Char)
  /-- The character has another meaning in formulas. -/
  | reserved (c : Char)
deriving DecidableEq, Repr

namespace SeparatorError

/-- What is wrong with the separators. -/
def reason : SeparatorError → String
  | .equal c => s!"decimal and grouping separators are both '{c}'"
  | .reserved c => s!"'{c}' cannot be used as a separator"

end SeparatorError

/-- Whether a character has a meaning of its own in formulas and expressions. -/
def isReserved (c : Char) : Bool :=
  c.isDigit || isLetter c || Operator.isGlyph c || ['(', ')', '^', '*', '/'].contains c

namespace Separators

/-- Checks a pair of separators: they differ and neither is reserved. The decimal separator is
looked at first. -/
def check (s : Separators) : Except SeparatorError Unit :=
  if s.decimal = s.grouping then .error (.equal s.decimal)
  else if isReserved s.decimal then .error (.reserved s.decimal)
  else if isReserved s.grouping then .error (.reserved s.grouping)
  else .ok ()

/-- The pairs of separators that a configuration may have. -/
def Accepted (s : Separators) : Prop :=
  s.decimal ≠ s.grouping ∧ isReserved s.decimal = false ∧ isReserved s.grouping = false

instance (s : Separators) : Decidable s.Accepted := by
  unfold Accepted; infer_instance

theorem check_eq_ok_iff {s : Separators} : s.check = .ok () ↔ s.Accepted := by
  unfold check Accepted
  split <;> simp_all
  split <;> simp_all

end Separators

end PocketCalculator
