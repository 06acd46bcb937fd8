import PocketCalculator.Decimal.Double
import PocketCalculator.Toml.Value

/-!
# TOML scalars

The values that stand without quotes: truth values, integers, other numbers, dates and times.
-/

namespace PocketCalculator

namespace Toml

/-! ### Integers -/

/-- The digits of a number in which single underscores may stand between two digits. -/
def plainDigits? (isDigit : Char → Bool) : Text → Option Text
  | [] => none
  | [c] => if isDigit c then some [c] else none
  | c :: '_' :: rest => if isDigit c then (plainDigits? isDigit rest).map (c :: ·) else none
  | c :: rest => if isDigit c then (plainDigits? isDigit rest).map (c :: ·) else none

/-- A sign at the start of a number, and the text behind it. -/
def signed : Text → Bool × Text
  | '-' :: rest => (true, rest)
  | '+' :: rest => (false, rest)
  | rest => (false, rest)

/-- The digits of a whole number in decimal notation, which has no needless zero. -/
def wholeDigits? (t : Text) : Option Text :=
  match plainDigits? Char.isDigit t with
  | some ('0' :: _ :: _) => none
  | digits => digits

/-- The value of a character as a digit. -/
def digitValue (c : Char) : Nat :=
  if c.isDigit then c.toNat - '0'.toNat else c.toLower.toNat - 'a'.toNat + 10

/-- The number with given digits in a base. -/
def inBase (base : Nat) (digits : Text) : Nat :=
  digits.foldl (fun n c => base * n + digitValue c) 0

/-- Whether a character is a hexadecimal digit. -/
def isHexDigit (c : Char) : Bool :=
  c.isDigit || ('a' ≤ c && c ≤ 'f') || ('A' ≤ c && c ≤ 'F')

/-- An integer in decimal, hexadecimal, octal or binary notation. -/
def integer? : Text → Option Int
  | '0' :: 'x' :: digits => (plainDigits? isHexDigit digits).map (inBase 16 ·)
  | '0' :: 'o' :: digits => (plainDigits? (fun c => '0' ≤ c && c ≤ '7') digits).map (inBase 8 ·)
  | '0' :: 'b' :: digits => (plainDigits? (fun c => c == '0' || c == '1') digits).map (inBase 2 ·)
  | t =>
    let (negative, digits) := signed t
    (wholeDigits? digits).map fun digits =>
      if negative then -(inBase 10 digits : Int) else inBase 10 digits

/-! ### Other numbers -/

/-- Whether the number `digits * 10 ^ exponent` rounds to a finite double. -/
def isFiniteNumber (digits : Text) (exponent : Int) : Bool :=
  let coefficient := Nat.ofDigitChars 10 digits 0
  if coefficient = 0 then true
  else if 400 < exponent then false
  else if exponent + digits.length < 300 then true
  else if exponent < 0 then
    (⟨coefficient, exponent.natAbs⟩ : Decimal).nearestBits < Double.infinity
  else (⟨coefficient * tenPow exponent.natAbs, 0⟩ : Decimal).nearestBits < Double.infinity

/-- Whether a character belongs to a run of digits. -/
def isDigitOrUnderscore (c : Char) : Bool :=
  c.isDigit || c == '_'

/-- The value of an exponent, with its letter. -/
def exponent? : Text → Option Int
  | c :: rest =>
    if c = 'e' ∨ c = 'E' then
      let (negative, digits) := signed rest
      (plainDigits? Char.isDigit digits).map fun digits =>
        if negative then -(inBase 10 digits : Int) else inBase 10 digits
    else none
  | [] => none

/-- A number with a fraction or an exponent: whether it is in the range of doubles. -/
def float? (t : Text) : Option Bool :=
  let (_, t) := signed t
  match wholeDigits? (t.takeWhile isDigitOrUnderscore) with
  | none => none
  | some whole =>
    match t.dropWhile isDigitOrUnderscore with
    | '.' :: rest =>
      match plainDigits? Char.isDigit (rest.takeWhile isDigitOrUnderscore) with
      | none => none
      | some fraction =>
        let exponent? := match rest.dropWhile isDigitOrUnderscore with
          | [] => some 0
          | rest => exponent? rest
        exponent?.map fun e => isFiniteNumber (whole ++ fraction) (e - fraction.length)
    | rest => (exponent? rest).map fun e => isFiniteNumber whole e

/-! ### Dates and times -/

/-- The number written by two digits. -/
def twoDigits? (a b : Char) : Option Nat :=
  if a.isDigit ∧ b.isDigit then some (Nat.ofDigitChars 10 [a, b] 0) else none

/-- The number of days of a month. -/
def daysIn (year month : Nat) : Nat :=
  if month = 2 then
    if year % 4 = 0 ∧ (year % 100 ≠ 0 ∨ year % 400 = 0) then 29 else 28
  else if [4, 6, 9, 11].contains month then 30
  else 31

/-- Whether year, month and day, two digits each with the century first, make a date. -/
def isDate (year month day : List Char) : Bool :=
  isDigits (year ++ month ++ day) &&
    let number := fun digits => Nat.ofDigitChars 10 digits 0
    1 ≤ number month && number month ≤ 12 && 1 ≤ number day &&
      number day ≤ daysIn (number year) (number month)

/-- What follows a date at the start of a text. -/
def afterDate? : Text → Option Text
  | y₁ :: y₂ :: y₃ :: y₄ :: '-' :: m₁ :: m₂ :: '-' :: d₁ :: d₂ :: rest =>
    if isDate [y₁, y₂, y₃, y₄] [m₁, m₂] [d₁, d₂] then some rest else none
  | _ => none

/-- What follows an hour and a minute at the start of a text. -/
def afterMinute? : Text → Option Text
  | h₁ :: h₂ :: ':' :: m₁ :: m₂ :: rest =>
    match twoDigits? h₁ h₂, twoDigits? m₁ m₂ with
    | some hour, some minute => if hour < 24 ∧ minute < 60 then some rest else none
    | _, _ => none
  | _ => none

/-- What follows a time at the start of a text. Seconds and their fraction may be missing. -/
def afterTime? (t : Text) : Option Text :=
  match afterMinute? t with
  | some (':' :: s₁ :: s₂ :: rest) =>
    match twoDigits? s₁ s₂ with
    | some second =>
      if 60 < second then none
      else
        match rest with
        | '.' :: c :: rest => if c.isDigit then some (rest.dropWhile Char.isDigit) else none
        | rest => some rest
    | none => none
  | other => other

/-- Whether a text is nothing or an offset from universal time. -/
def isOffset : Text → Bool
  | [] => true
  | c :: rest =>
    if c = 'Z' ∨ c = 'z' then rest.isEmpty
    else (c = '+' ∨ c = '-') ∧ afterMinute? rest = some []

/-- Whether a text is a date, a time, or a date with a time. -/
def isDateTime (t : Text) : Bool :=
  match afterDate? t with
  | some [] => true
  | some (c :: rest) => (c = 'T' ∨ c = 't' ∨ c = ' ') ∧ (afterTime? rest).any isOffset
  | none => afterTime? t = some []

/-! ### Scalars -/

/-- Whether a character may stand in a scalar. -/
def isScalarChar (c : Char) : Bool :=
  c.isAlphanum || c == '_' || c == '+' || c == '-' || c == '.' || c == ':'

/-- The value of a scalar. -/
def scalar? (t : Text) : Option Toml :=
  let unsigned := (signed t).2
  if t = "true".toList then some (.bool true)
  else if t = "false".toList then some (.bool false)
  else if unsigned = "inf".toList ∨ unsigned = "nan".toList then some (.float true)
  else
    match integer? t with
    | some n => some (.integer n)
    | none =>
      match float? t with
      | some inRange => some (.float inRange)
      | none => if isDateTime t then some .dateTime else none

/-- The length of a scalar at the start of a text. A blank can separate a date from a time. -/
def scalarLength (t : Text) : Nat :=
  let first := (t.takeWhile isScalarChar).length
  match afterDate? (t.take first), t.drop first with
  | some [], ' ' :: c :: rest =>
    if c.isDigit then first + 1 + ((c :: rest).takeWhile isScalarChar).length else first
  | _, _ => first

end Toml

end PocketCalculator
