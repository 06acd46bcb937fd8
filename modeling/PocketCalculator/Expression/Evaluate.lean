import PocketCalculator.Decimal.Double
import PocketCalculator.Expression.Cursor

/-!
# The value of an expression

An expression is a sum of terms, a term a product of factors, and a factor is

* a sign and a factor, or
* an atom, then at most one `^` with a factor, then at most one `%`,

where an atom is an expression in parentheses, a literal, or `sqrt` and a factor. Blank characters
may stand before every token and at the end. Division by zero is no error: it has an infinite or
undefined double as its value.

Every function here reads from a cursor and answers a value with the cursor behind it. Factors
are read by recursion on the number of levels that are left below the limit, sums and products by
recursion on the number of operators that can still follow.
-/

namespace PocketCalculator

/-- A reader of a part of an expression. -/
abbrev Reader := Cursor → Except EvalError (Float × Cursor)

namespace Expression

/-- What an additive operator does to the sum before it and the term after it. -/
def additive? : Char → Option (Float → Float → Float)
  | '+' => some (· + ·)
  | '-' => some (· - ·)
  | _ => none

/-- What a multiplicative operator does to the product before it and the factor after it. -/
def multiplicative? : Char → Option (Float → Float → Float)
  | '*' => some (· * ·)
  | '/' => some (· / ·)
  | _ => none

/-- Goes on from the value of a first operand through at most `count` operators and their right
operands, from left to right. -/
def chain (operator? : Char → Option (Float → Float → Float)) (operand : Reader) :
    (count : Nat) → Float → Reader
  | 0, value, cur => .ok (value, cur)
  | count + 1, value, cur =>
    let next := cur.skipBlank
    match next.rest with
    | [] => .ok (value, next)
    | c :: rest =>
      match operator? c with
      | none => .ok (value, next)
      | some combine =>
        match operand (next.after [c] rest) with
        | .error e => .error e
        | .ok (right, behind) => chain operator? operand count (combine value right) behind

/-- Operands with operators of one rank between them. -/
def operands (operator? : Char → Option (Float → Float → Float)) (operand : Reader) : Reader :=
  fun cur =>
    match operand cur with
    | .error e => .error e
    | .ok (first, behind) => chain operator? operand behind.rest.length first behind

/-- A product of factors. -/
def term (factor : Reader) : Reader :=
  operands multiplicative? factor

/-- A sum of terms. -/
def sum (factor : Reader) : Reader :=
  operands additive? (term factor)

/-- Whether a character belongs to a literal. -/
def isLiteralChar (c : Char) : Bool :=
  c.isDigit || c == '.'

/-- A literal: the longest run of digits and points. -/
def literal : Reader := fun cur =>
  match Decimal.ofLiteral? (cur.rest.takeWhile isLiteralChar) with
  | none => .error cur.unexpected
  | some x =>
    x.toFloat?.elim (.error .overflow) fun value => .ok (value, cur.skipWhile isLiteralChar)

/-- A function name, the longest run of small letters, and its argument. -/
def application (factor : Reader) : Reader := fun cur =>
  let name := cur.rest.takeWhile Char.isLower
  if name = "sqrt".toList then
    match factor (cur.skipWhile Char.isLower) with
    | .error e => .error e
    | .ok (value, behind) => .ok (value.sqrt, behind)
  else .error (.unknownFunction name)

/-- An expression in parentheses, whose opening one has been read. -/
def group (factor : Reader) : Reader := fun cur =>
  match sum factor cur with
  | .error e => .error e
  | .ok (value, behind) =>
    let close := behind.skipBlank
    match close.rest with
    | ')' :: rest => .ok (value, close.after [')'] rest)
    | _ => .error close.unexpected

/-- An atom that stands at the cursor. -/
def atom (factor : Reader) : Reader := fun cur =>
  match cur.rest with
  | [] => .error cur.unexpected
  | c :: rest =>
    if c = '(' then group factor (cur.after [c] rest)
    else if isLiteralChar c then literal cur
    else if c.isLower then application factor cur
    else .error cur.unexpected

/-- The power of a value, if `^` follows it. -/
def power (factor : Reader) (value : Float) : Reader := fun cur =>
  let next := cur.skipBlank
  match next.rest with
  | '^' :: rest =>
    match factor (next.after ['^'] rest) with
    | .error e => .error e
    | .ok (exponent, behind) => .ok (value.pow exponent, behind)
  | _ => .ok (value, next)

/-- The hundredth part of a value, if `%` follows it. -/
def percent (value : Float) (cur : Cursor) : Float × Cursor :=
  let next := cur.skipBlank
  match next.rest with
  | '%' :: rest => (value / 100, next.after ['%'] rest)
  | _ => (value, next)

/-- One level of factors: what a factor is when `factor` reads the factors inside it. -/
def level (factor : Reader) : Reader := fun cur =>
  let next := cur.skipBlank
  match next.rest with
  | '+' :: rest => factor (next.after ['+'] rest)
  | '-' :: rest =>
    match factor (next.after ['-'] rest) with
    | .error e => .error e
    | .ok (value, behind) => .ok (-value, behind)
  | _ =>
    match atom factor next with
    | .error e => .error e
    | .ok (value, behind) =>
      match power factor value behind with
      | .error e => .error e
      | .ok (value, behind) => .ok (percent value behind)

/-- A factor, inside which `levels - 1` more levels may be nested. -/
def factor (limit : Nat) : (levels : Nat) → Reader
  | 0 => fun cur => .error (.nestedTooDeep cur.position limit)
  | levels + 1 => level (factor limit levels)

/-- The value of a whole expression whose factors are nested at most `limit` deep. -/
def evaluateWithin (limit : Nat) (t : Text) : Except EvalError Float :=
  match sum (factor limit limit) (Cursor.start t) with
  | .error e => .error e
  | .ok (value, behind) =>
    let rest := behind.skipBlank
    if rest.rest.isEmpty then .ok value else .error rest.unexpected

end Expression

/-- The deepest nesting of factors that is evaluated. -/
def nestingLimit : Nat := 256

/-- The value of an expression. -/
def evaluate (t : Text) : Except EvalError Float :=
  Expression.evaluateWithin nestingLimit t

end PocketCalculator
