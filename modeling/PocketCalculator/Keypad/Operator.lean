/-!
# Operators

The operator keys and the glyphs that a displayed formula has for them.
-/

namespace PocketCalculator

/-- An operator key. -/
inductive Operator where
  | plus
  | minus
  | times
  | divide
  | percent
deriving DecidableEq, Repr

namespace Operator

/-- All operators. -/
def all : List Operator := [plus, minus, times, divide, percent]

/-- The character of an operator in a displayed formula. -/
def glyph : Operator → Char
  | plus => '+'
  | minus => '-'
  | times => '×'
  | divide => '÷'
  | percent => '%'

/-- Whether a character is the glyph of an operator. -/
def isGlyph (c : Char) : Bool :=
  all.any fun op => op.glyph = c

/-- The operator of a key of a script. -/
def ofChar? (c : Char) : Option Operator :=
  if c = '+' then some plus
  else if c = '-' ∨ c = '−' then some minus
  else if c = '*' ∨ c = '×' ∨ c = 'x' then some times
  else if c = '/' ∨ c = '÷' then some divide
  else if c = '%' then some percent
  else none

@[simp] theorem isGlyph_glyph (op : Operator) : isGlyph op.glyph := by
  cases op <;> decide

theorem isGlyph_iff {c : Char} : isGlyph c ↔ ∃ op : Operator, op.glyph = c := by
  constructor
  · intro h
    obtain ⟨op, _, hop⟩ := List.any_eq_true.1 h
    exact ⟨op, by simpa using hop⟩
  · rintro ⟨op, rfl⟩
    exact isGlyph_glyph op

end Operator

end PocketCalculator
