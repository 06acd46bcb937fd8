import PocketCalculator.Text.Utf8

/-!
# JSON tokens

The tokens of a JSON text are its punctuation, names, numbers and strings; spaces, tabs and line
ends may stand between them. Which sequences of tokens make a value is not decided here.
-/

namespace PocketCalculator

namespace Json

/-- A token of a JSON text. -/
inductive Token where
  | openArray
  | closeArray
  | openObject
  | closeObject
  | comma
  | colon
  | null
  | bool (b : Bool)
  | number (literal : Text)
  | string (content : Option Text)
deriving DecidableEq, Repr

/-- Whether a symbol is white space between tokens. -/
def isSpace (x : Symbol) : Bool :=
  x = some ' ' || x = some '\n' || x = some '\t' || x = some '\r'

/-! ### Numbers -/

/-- Whether a character may occur in a number. -/
def isNumberChar (c : Char) : Bool :=
  c.isDigit || c == '-' || c == '+' || c == '.' || c == 'e' || c == 'E'

/-- Whether a text is nothing or an exponent. -/
def isExponent : Text → Bool
  | [] => true
  | c :: rest =>
    (c == 'e' || c == 'E') &&
      match rest with
      | '+' :: digits => isDigits digits
      | '-' :: digits => isDigits digits
      | digits => isDigits digits

/-- Whether a text is nothing or a fraction, and then nothing or an exponent. -/
def isFraction : Text → Bool
  | '.' :: rest =>
    !(rest.takeWhile Char.isDigit).isEmpty && isExponent (rest.dropWhile Char.isDigit)
  | rest => isExponent rest

/-- Whether a text is a number without sign. The integer part has no needless zero. -/
def isMagnitude : Text → Bool
  | '0' :: rest => isFraction rest
  | c :: rest => c.isDigit && isFraction (rest.dropWhile Char.isDigit)
  | [] => false

/-- Whether a text is a number. -/
def isNumber : Text → Bool
  | '-' :: rest => isMagnitude rest
  | rest => isMagnitude rest

/-! ### Strings -/

/-- A part of a string: a symbol, or an escape for a UTF-16 code unit. -/
inductive Piece where
  | symbol (x : Symbol)
  | unit (code : Nat)
deriving DecidableEq, Repr

/-- The value of a hexadecimal digit. -/
def hexDigit? (x : Symbol) : Option Nat :=
  match x with
  | none => none
  | some c =>
    if c.isDigit then some (c.toNat - '0'.toNat)
    else if 'a' ≤ c ∧ c ≤ 'f' then some (c.toNat - 'a'.toNat + 10)
    else if 'A' ≤ c ∧ c ≤ 'F' then some (c.toNat - 'A'.toNat + 10)
    else none

/-- The value of four hexadecimal digits. -/
def hexUnit? (a b c d : Symbol) : Option Nat := do
  let a ← hexDigit? a
  let b ← hexDigit? b
  let c ← hexDigit? c
  let d ← hexDigit? d
  return ((a * 16 + b) * 16 + c) * 16 + d

/-- The character of an escape of two characters. -/
def shortEscape? : Char → Option Char
  | '"' => some '"'
  | '\\' => some '\\'
  | '/' => some '/'
  | 'b' => some '\x08'
  | 'f' => some '\x0c'
  | 'n' => some '\n'
  | 'r' => some '\r'
  | 't' => some '\t'
  | _ => none

/-- The pieces of a string up to its closing quote, after the pieces in `done`, last first, and
what follows the quote. Control characters have to be escaped. -/
def pieces? : (done : List Piece) → List Symbol → Option (List Piece × List Symbol)
  | done, some '"' :: rest => some (done.reverse, rest)
  | done, some '\\' :: some 'u' :: a :: b :: c :: d :: rest =>
    match hexUnit? a b c d with
    | some code => pieces? (.unit code :: done) rest
    | none => none
  | done, some '\\' :: some e :: rest =>
    match shortEscape? e with
    | some c => pieces? (.symbol (some c) :: done) rest
    | none => none
  | done, x :: rest =>
    if x = some '\\' ∨ x.any (· < ' ') then none else pieces? (.symbol x :: done) rest
  | _, [] => none

/-- Whether a code unit is the first of a surrogate pair. -/
def isHighSurrogate (code : Nat) : Bool :=
  0xd800 ≤ code && code < 0xdc00

/-- Whether a code unit is the second of a surrogate pair. -/
def isLowSurrogate (code : Nat) : Bool :=
  0xdc00 ≤ code && code < 0xe000

/-- The content of a string: nothing may be stray, and surrogates come in pairs. -/
def content? : List Piece → Option Text
  | [] => some []
  | .symbol (some c) :: rest => (content? rest).map (c :: ·)
  | .symbol none :: _ => none
  | .unit high :: .unit low :: rest =>
    if isHighSurrogate high then
      if isLowSurrogate low then
        let code := 0x10000 + (high - 0xd800) * 0x400 + (low - 0xdc00)
        (content? rest).map (Char.ofNat code :: ·)
      else none
    else if isLowSurrogate high then none
    else (content? (.unit low :: rest)).map (Char.ofNat high :: ·)
  | .unit code :: rest =>
    if isHighSurrogate code || isLowSurrogate code then none
    else (content? rest).map (Char.ofNat code :: ·)

/-! ### Tokens -/

/-- The token at the start of a text that does not start with white space, and what follows it. -/
def token? : List Symbol → Option (Token × List Symbol)
  | some '[' :: rest => some (.openArray, rest)
  | some ']' :: rest => some (.closeArray, rest)
  | some '{' :: rest => some (.openObject, rest)
  | some '}' :: rest => some (.closeObject, rest)
  | some ',' :: rest => some (.comma, rest)
  | some ':' :: rest => some (.colon, rest)
  | some 'n' :: some 'u' :: some 'l' :: some 'l' :: rest => some (.null, rest)
  | some 't' :: some 'r' :: some 'u' :: some 'e' :: rest => some (.bool true, rest)
  | some 'f' :: some 'a' :: some 'l' :: some 's' :: some 'e' :: rest => some (.bool false, rest)
  | some '"' :: rest => (pieces? [] rest).map fun r => (.string (content? r.1), r.2)
  | xs =>
    let literal := (xs.takeWhile fun x => x.any isNumberChar).reduceOption
    if isNumber literal then some (.number literal, xs.drop literal.length) else none

/-- The tokens of a text, after those in `done`, last first. A text has no more tokens than
symbols, so `fuel` can be its length. -/
def tokensFrom (done : List Token) : (fuel : Nat) → List Symbol → Option (List Token)
  | fuel, xs =>
    match xs.dropWhile isSpace, fuel with
    | [], _ => some done.reverse
    | _, 0 => none
    | x :: rest, fuel + 1 =>
      match token? (x :: rest) with
      | some (t, rest) => tokensFrom (t :: done) fuel rest
      | none => none

/-- The tokens of a text, if it is made of tokens. -/
def tokens? (xs : List Symbol) : Option (List Token) :=
  tokensFrom [] xs.length xs

end Json

end PocketCalculator
