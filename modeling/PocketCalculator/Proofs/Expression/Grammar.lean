import PocketCalculator.Proofs.Expression.Literal

/-!
# The grammar of expressions

A derivation is a tree with the blank characters before every token:

* `Operands` for sums and products, `Atom` and `Level` for a factor whose inner factors are of some
  type, `Factor n` for factors nested at most `n` deep, `Derivation n` for a whole expression;
* a `Phrase` says what the trees of a type stand for: their text, their value, and when they are
  settled, that is, have taken all that they can of the text behind them.

Settling is what makes the grammar unambiguous: a literal and a name end only where no further
character belongs to them, and a factor is not followed by a `^` or `%` that it still could take.
-/

namespace PocketCalculator

namespace Expression

/-- Blank characters, which may stand before a token. -/
abbrev Gap := { t : Text // ∀ c ∈ t, isBlank c }

/-- The first character of a text that is not blank. -/
def next? (t : Text) : Option Char := (t.dropWhile isBlank).head?

/-- What the trees of a type stand for. -/
structure Phrase (α : Type) where
  text : α → Text
  /-- The value, unless a literal is out of the range of finite doubles. -/
  value? : α → Option Float
  /-- Whether a tree takes all it can when the given text follows it. -/
  Settled : α → Text → Prop

/-! ### Sums and products -/

/-- An operand after the first one, with the operator before it. -/
structure Further (α : Type) where
  gap : Gap
  operator : Char
  operand : α

/-- Operands with operators between them. -/
structure Operands (α : Type) where
  first : α
  more : List (Further α)

namespace Phrase

variable {α : Type}

/-- The text of an operand after the first one. -/
def furtherText (P : Phrase α) (y : Further α) : Text :=
  y.gap ++ y.operator :: P.text y.operand

/-- The text of the operands after the first one. -/
def moreText (P : Phrase α) (ys : List (Further α)) : Text :=
  ys.flatMap P.furtherText

/-- The value of operands after operands with the given value, from left to right. -/
def moreValue? (operator? : Char → Option (Float → Float → Float)) (P : Phrase α) :
    Float → List (Further α) → Option Float
  | value, [] => some value
  | value, y :: ys =>
    match operator? y.operator, P.value? y.operand with
    | some combine, some right => moreValue? operator? P (combine value right) ys
    | _, _ => none

/-- Whether each of the operands after the first one has a known operator and is settled. -/
def MoreSettled (operator? : Char → Option (Float → Float → Float)) (P : Phrase α) :
    List (Further α) → Text → Prop
  | [], _ => True
  | y :: ys, rest =>
    (operator? y.operator).isSome ∧ P.Settled y.operand (P.moreText ys ++ rest) ∧
      MoreSettled operator? P ys rest

/-- One or more operands with operators between them. -/
def operands (operator? : Char → Option (Float → Float → Float)) (P : Phrase α) :
    Phrase (Operands α) where
  text x := P.text x.first ++ P.moreText x.more
  value? x := (P.value? x.first).bind fun value => P.moreValue? operator? value x.more
  Settled x rest :=
    P.Settled x.first (P.moreText x.more ++ rest) ∧ P.MoreSettled operator? x.more rest

/-- Terms: factors with multiplicative operators between them. -/
def term (P : Phrase α) : Phrase (Operands α) := P.operands multiplicative?

/-- Expressions: terms with additive operators between them. -/
def sum (P : Phrase α) : Phrase (Operands (Operands α)) := P.term.operands additive?

end Phrase

/-! ### Atoms -/

/-- An atom, from its first token on, over the trees of inner factors. -/
inductive Atom (α : Type) where
  | group (inner : Operands (Operands α)) (close : Gap)
  | literal (l : Literal)
  | root (argument : α)

namespace Phrase

variable {α : Type}

/-- Atoms. A literal and a function name are as long as possible. -/
def atom (P : Phrase α) : Phrase (Atom α) where
  text
    | .group inner close => '(' :: (P.sum.text inner ++ close ++ [')'])
    | .literal l => l.run
    | .root argument => "sqrt".toList ++ P.text argument
  value?
    | .group inner _ => P.sum.value? inner
    | .literal l => l.decimal.toFloat?
    | .root argument => (P.value? argument).map Float.sqrt
  Settled
    | .group inner close, rest => P.sum.Settled inner (close ++ ')' :: rest)
    | .literal _, rest => StopsAt isLiteralChar rest
    | .root argument, rest =>
      P.Settled argument rest ∧ StopsAt Char.isLower (P.text argument ++ rest)

end Phrase

/-! ### Factors -/

/-- A factor over the trees of the factors inside it. -/
inductive Level (α : Type) where
  | positive (gap : Gap) (inner : α)
  | negative (gap : Gap) (inner : α)
  /-- An atom with at most one exponent and then at most one percent sign. -/
  | plain (gap : Gap) (base : Atom α) (exponent? : Option (Gap × α)) (percent? : Option Gap)

namespace Phrase

variable {α : Type}

/-- The text of an exponent, if there is one. -/
def exponentText (P : Phrase α) : Option (Gap × α) → Text
  | none => []
  | some (gap, exponent) => gap ++ '^' :: P.text exponent

/-- The text of a percent sign, if there is one. -/
def percentText : Option Gap → Text
  | none => []
  | some gap => gap ++ ['%']

/-- The value of a base with its exponent, if there is one. -/
def raised? (P : Phrase α) (value : Float) : Option (Gap × α) → Option Float
  | none => some value
  | some (_, exponent) => (P.value? exponent).map value.pow

/-- The value of a factor whose percent sign, if there is one, is left out in `value`. -/
def hundredth (value : Float) : Option Gap → Float
  | none => value
  | some _ => value / 100

/-- Whether an exponent, if there is one, is settled; without one no `^` may follow, because the
factor would take it. -/
def ExponentSettled (P : Phrase α) : Option (Gap × α) → Text → Prop
  | none, rest => next? rest ≠ some '^'
  | some (_, exponent), rest => P.Settled exponent rest

/-- Without a percent sign no `%` may follow, because the factor would take it. -/
def PercentSettled : Option Gap → Text → Prop
  | none, rest => next? rest ≠ some '%'
  | some _, _ => True

/-- Factors. A sign takes in the factor behind it, with its exponent and percent sign. -/
def level (P : Phrase α) : Phrase (Level α) where
  text
    | .positive gap inner => gap ++ '+' :: P.text inner
    | .negative gap inner => gap ++ '-' :: P.text inner
    | .plain gap base exponent? percent? =>
      gap ++ (P.atom.text base ++ (P.exponentText exponent? ++ percentText percent?))
  value?
    | .positive _ inner => P.value? inner
    | .negative _ inner => (P.value? inner).map (- ·)
    | .plain _ base exponent? percent? =>
      ((P.atom.value? base).bind (P.raised? · exponent?)).map (hundredth · percent?)
  Settled
    | .positive _ inner, rest => P.Settled inner rest
    | .negative _ inner, rest => P.Settled inner rest
    | .plain _ base exponent? percent?, rest =>
      P.atom.Settled base (P.exponentText exponent? ++ (percentText percent? ++ rest)) ∧
        P.ExponentSettled exponent? (percentText percent? ++ rest) ∧ PercentSettled percent? rest

end Phrase

/-- Factors nested at most `n` deep. -/
def Factor : (n : Nat) → Type
  | 0 => Empty
  | n + 1 => Level (Factor n)

/-- Factors nested at most `n` deep; there are none of depth zero. -/
def Phrase.factor : (n : Nat) → Phrase (Factor n)
  | 0 => ⟨Empty.elim, Empty.elim, fun x => x.elim⟩
  | n + 1 => (Phrase.factor n).level

/-! ### Whole expressions -/

/-- A derivation of a whole expression whose factors are nested at most `n` deep. -/
structure Derivation (n : Nat) where
  tree : Operands (Operands (Factor n))
  last : Gap

namespace Derivation

variable {n : Nat}

/-- Whether a derivation derives a text. -/
def Derives (d : Derivation n) (t : Text) : Prop :=
  (Phrase.factor n).sum.text d.tree ++ d.last = t ∧ (Phrase.factor n).sum.Settled d.tree d.last

/-- The value of a derivation, unless a literal is out of the range of finite doubles. -/
def value? (d : Derivation n) : Option Float := (Phrase.factor n).sum.value? d.tree

end Derivation

end Expression

end PocketCalculator
