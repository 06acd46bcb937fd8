import PocketCalculator.Text.Basic

/-!
# JSON values

A value as it stands in a text: numbers keep their spelling, objects keep the order and the
repetitions of their members. A string that does not spell a text, because of a surrogate without
partner or of stray bytes, is a well-formed value all the same, but has no content.

Records are read from objects or from arrays: an object has each field at most once and may have
others, an array lists the fields in order and may leave out the last ones.
-/

namespace PocketCalculator

/-- A JSON value. -/
inductive Json where
  | null
  | bool (b : Bool)
  | number (literal : Text)
  | string (content : Option Text)
  | array (items : List Json)
  | object (members : List (Option Text × Json))
deriving Inhabited

namespace Json

/-- The content of a string. -/
def text? : Json → Option Text
  | .string content => content
  | _ => none

/-- The number that an integer literal spells; minus zero is no integer. -/
def int? : Json → Option Int
  | .number ('-' :: digits) =>
    if isDigits digits ∧ digits ≠ ['0'] then some (-(Nat.ofDigitChars 10 digits 0 : Int)) else none
  | .number digits => if isDigits digits then some (Nat.ofDigitChars 10 digits 0) else none
  | _ => none

/-- The number that an integer literal in a range spells, both ends included. -/
def intIn? (low high : Int) (v : Json) : Option Int :=
  v.int?.filter fun n => low ≤ n ∧ n ≤ high

/-- The value of a field of an object, if there is one; there may not be two. -/
def member? (members : List (Option Text × Json)) (name : Text) : Option (Option Json) :=
  match members.filter fun m => m.1 = some name with
  | [] => some none
  | [m] => some (some m.2)
  | _ => none

/-- The values of the named fields of a record, where a field may be missing. -/
def fields? (names : List Text) : Json → Option (List (Option Json))
  | .object members =>
    if members.all fun m => m.1.isSome then names.mapM (member? members) else none
  | .array items =>
    if items.length ≤ names.length then
      some (items.map some ++ List.replicate (names.length - items.length) none)
    else none
  | _ => none

/-- The literal of an integer. -/
def ofInt (n : Int) : Json :=
  let digits := Nat.toDigits 10 n.natAbs
  .number (if n < 0 then '-' :: digits else digits)

/-- The string with a given content. -/
def ofText (t : Text) : Json :=
  .string (some t)

end Json

end PocketCalculator
