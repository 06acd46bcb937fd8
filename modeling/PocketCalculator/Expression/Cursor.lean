import PocketCalculator.Expression.Error
import PocketCalculator.Text.Blank

/-!
# Places in an expression

A cursor is what is left of an expression together with the number of UTF-8 bytes before it.
-/

namespace PocketCalculator

/-- A place in an expression. -/
structure Cursor where
  position : Nat
  rest : Text
deriving DecidableEq, Repr

namespace Cursor

/-- The start of an expression. -/
def start (t : Text) : Cursor :=
  ⟨0, t⟩

/-- The place after a piece of text that stands at the cursor, before `rest`. -/
def after (cur : Cursor) (piece rest : Text) : Cursor :=
  ⟨cur.position + utf8Length piece, rest⟩

/-- The place after the longest run of characters in a class. -/
def skipWhile (p : Char → Bool) (cur : Cursor) : Cursor :=
  cur.after (cur.rest.takeWhile p) (cur.rest.dropWhile p)

/-- The next place that is not blank. -/
def skipBlank (cur : Cursor) : Cursor :=
  cur.skipWhile isBlank

/-- The error that nothing of an expression can stand at the cursor. -/
def unexpected (cur : Cursor) : EvalError :=
  .unexpected cur.position cur.rest.head?

end Cursor

end PocketCalculator
