import PocketCalculator.Json.Value

/-!
# Printing JSON

Values are written without white space, or with one item a line and an indentation of two spaces.
Strings escape only what they have to: the quote, the backslash and control characters.
-/

namespace PocketCalculator

namespace Json

/-- A hexadecimal digit of a control character. -/
def hexChar (n : Nat) : Char :=
  Nat.digitChar (n % 16)

/-- A character in a string. -/
def escaped (c : Char) : Text :=
  if c = '"' then ['\\', '"']
  else if c = '\\' then ['\\', '\\']
  else if c = '\x08' then ['\\', 'b']
  else if c = '\x0c' then ['\\', 'f']
  else if c = '\n' then ['\\', 'n']
  else if c = '\r' then ['\\', 'r']
  else if c = '\t' then ['\\', 't']
  else if c < ' ' then ['\\', 'u', '0', '0', hexChar (c.toNat / 16), hexChar c.toNat]
  else [c]

/-- A string. One without content is written as a surrogate without partner. -/
def quoted : Option Text → Text
  | some t => '"' :: (t.flatMap escaped ++ ['"'])
  | none => "\"\\ud800\"".toList

/-- The items of a container that is written on one line. -/
def joined (items : List Text) : Text :=
  List.intercalate [','] items

mutual

/-- A value without white space. -/
def compact : Json → Text
  | .null => "null".toList
  | .bool true => "true".toList
  | .bool false => "false".toList
  | .number literal => literal
  | .string content => quoted content
  | .array items => '[' :: (joined (compactItems items) ++ [']'])
  | .object members => '\x7b' :: (joined (compactMembers members) ++ ['\x7d'])

/-- The items of an array without white space. -/
def compactItems : List Json → List Text
  | [] => []
  | v :: rest => v.compact :: compactItems rest

/-- The members of an object without white space. -/
def compactMembers : List (Option Text × Json) → List Text
  | [] => []
  | (name, v) :: rest => (quoted name ++ ':' :: v.compact) :: compactMembers rest

end

/-- The indentation at a depth. -/
def indentation (depth : Nat) : Text :=
  '\n' :: List.replicate (2 * depth) ' '

/-- Items on lines of their own, between brackets; without items the brackets stand together. -/
def bracketed (first last : Char) (depth : Nat) (items : List Text) : Text :=
  if items.isEmpty then [first, last]
  else
    let lines := items.map (indentation (depth + 1) ++ ·)
    first :: (joined lines ++ indentation depth ++ [last])

mutual

/-- A value on indented lines, inside `depth` containers. -/
def prettyAt (depth : Nat) : Json → Text
  | .array items => bracketed '[' ']' depth (prettyItems (depth + 1) items)
  | .object members => bracketed '\x7b' '\x7d' depth (prettyMembers (depth + 1) members)
  | .null => "null".toList
  | .bool true => "true".toList
  | .bool false => "false".toList
  | .number literal => literal
  | .string content => quoted content

/-- The items of an array on indented lines. -/
def prettyItems (depth : Nat) : List Json → List Text
  | [] => []
  | v :: rest => prettyAt depth v :: prettyItems depth rest

/-- The members of an object on indented lines. -/
def prettyMembers (depth : Nat) : List (Option Text × Json) → List Text
  | [] => []
  | (name, v) :: rest =>
    (quoted name ++ ':' :: ' ' :: prettyAt depth v) :: prettyMembers depth rest

end

/-- A value on indented lines. -/
def pretty (v : Json) : Text :=
  prettyAt 0 v

end Json

end PocketCalculator
