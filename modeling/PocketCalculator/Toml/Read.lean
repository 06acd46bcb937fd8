import PocketCalculator.Toml.Quoted
import PocketCalculator.Toml.Scalar

/-!
# Reading TOML

A document is a sequence of lines, each with a header, with a key and a value, or with neither. A
value can go over several lines. Arrays and tables in braces may be nested as deep as the number
of levels that is given.
-/

namespace PocketCalculator

namespace Toml

/-- The deepest nesting of arrays and tables in braces, and the largest number of parts of a key. -/
def nestingLimit : Nat := 80

/-! ### Blanks, comments and keys -/

/-- A text without the blanks and the comment that its first line starts with. -/
def skipComment (t : Text) : Text :=
  match t.dropWhile isLineBlank with
  | '#' :: rest => rest.dropWhile isLineChar
  | rest => rest

/-- What follows the end of a line, before which only a comment may stand. -/
def afterLine? (t : Text) : Option Text :=
  match skipComment t with
  | [] => some []
  | rest => afterLineBreak? rest

/-- A text without the blanks, comments and line breaks at its start. -/
def skipLines : (fuel : Nat) → Text → Text
  | 0, t => t
  | fuel + 1, t =>
    let t := skipComment t
    match afterLineBreak? t with
    | some rest => skipLines fuel rest
    | none => t

/-- A text without the blanks, comments and line breaks at its start. -/
def skipSpace (t : Text) : Text :=
  skipLines (t.length + 1) t

/-- Whether a character may stand in a key without quotes. -/
def isKeyChar (c : Char) : Bool :=
  c.isAlphanum || c == '_' || c == '-'

/-- A key without dots at the start of a text, and what follows it. -/
def simpleKey? (t : Text) : Option (Text × Text) :=
  match t with
  | '"' :: rest => basicLine? rest
  | '\'' :: rest => literalLine? rest
  | _ =>
    let key := t.takeWhile isKeyChar
    if key.isEmpty then none else some (key, t.drop key.length)

/-- A key with dots at the start of a text, as the path before its last part and that part, and
what follows it; blanks may stand around the dots. The path is limited like nested tables. -/
def keyFrom (path : List Text) : (fuel : Nat) → Text → Option ((List Text × Text) × Text)
  | 0, _ => none
  | fuel + 1, t =>
    match simpleKey? (t.dropWhile isLineBlank) with
    | none => none
    | some (key, rest) =>
      match rest.dropWhile isLineBlank with
      | '.' :: rest => keyFrom (path ++ [key]) fuel rest
      | rest => if path.length < nestingLimit then some ((path, key), rest) else none

/-- A key with dots at the start of a text. -/
def key? (t : Text) : Option ((List Text × Text) × Text) :=
  keyFrom [] (t.length + 1) t

/-! ### Values -/

/-- A reader of a part of a document. -/
abbrev Reader (α : Type) := Text → Option (α × Text)

/-- The items of an array up to its closing bracket, after the ones in `done`. -/
def itemsFrom (value? : Reader Toml) (done : List Toml) : (fuel : Nat) → Reader (List Toml)
  | 0, _ => none
  | fuel + 1, t =>
    match skipSpace t with
    | ']' :: rest => some (done, rest)
    | t =>
      match value? t with
      | none => none
      | some (v, rest) =>
        match skipSpace rest with
        | ',' :: rest => itemsFrom value? (done ++ [v]) fuel rest
        | ']' :: rest => some (done ++ [v], rest)
        | _ => none

/-- A key, an equals sign and a value, added to a table. Line breaks may stand around the equals
sign. -/
def member? (value? : Reader Toml) (table : Table) : Reader Table := fun t =>
  match key? t with
  | none => none
  | some ((path, key), rest) =>
    match skipSpace rest with
    | '=' :: rest =>
      match value? (skipSpace rest) with
      | none => none
      | some (v, rest) => (table.insert path key v).map (·, rest)
    | _ => none

/-- The members of a table in braces up to its closing brace, added to a table. -/
def membersFrom (value? : Reader Toml) (table : Table) : (fuel : Nat) → Reader Table
  | 0, _ => none
  | fuel + 1, t =>
    match skipSpace t with
    | '\x7d' :: rest => some (table, rest)
    | t =>
      match member? value? table t with
      | none => none
      | some (table, rest) =>
        match skipSpace rest with
        | ',' :: rest => membersFrom value? table fuel rest
        | '\x7d' :: rest => some (table, rest)
        | _ => none

/-- A value at the start of a text, with at most `levels` arrays and tables inside one another. -/
def value? : (levels : Nat) → Reader Toml
  | levels, t =>
    match t, levels with
    | '[' :: _, 0 => none
    | '[' :: rest, levels + 1 =>
      (itemsFrom (value? levels) [] (rest.length + 1) rest).map fun r => (.array r.1 false, r.2)
    | '\x7b' :: _, 0 => none
    | '\x7b' :: rest, levels + 1 =>
      (membersFrom (value? levels) ⟨.inline, []⟩ (rest.length + 1) rest).map fun r =>
        (r.1.value, r.2)
    | '"' :: _, _ => (quoted? t).map fun r => (.string r.1, r.2)
    | '\'' :: _, _ => (quoted? t).map fun r => (.string r.1, r.2)
    | _, _ =>
      let count := scalarLength t
      (scalar? (t.take count)).map (·, t.drop count)

/-! ### Documents -/

/-- A document up to some line, and the path of the table that its next keys go into. -/
structure Draft where
  root : Table
  current : List Text

namespace Draft

/-- The empty document. -/
def empty : Draft :=
  ⟨⟨.header, []⟩, []⟩

/-- A header, whose first bracket has been read, and what follows it. -/
def header? (d : Draft) : Reader Draft := fun t =>
  match t with
  | '[' :: rest =>
    match key? rest with
    | some ((path, key), ']' :: ']' :: rest) =>
      (d.root.openItem path key).map fun root => (⟨root, path ++ [key]⟩, rest)
    | _ => none
  | _ =>
    match key? t with
    | some ((path, key), ']' :: rest) =>
      (d.root.openTable path key).map fun root => (⟨root, path ++ [key]⟩, rest)
    | _ => none

/-- A key with a value, which goes into the current table, and what follows it. -/
def member? (levels : Nat) (d : Draft) : Reader Draft := fun t =>
  match key? t with
  | some ((path, key), '=' :: rest) =>
    match value? levels (rest.dropWhile isLineBlank) with
    | none => none
    | some (v, rest) =>
      (d.root.change false (·.insert path key v) d.current).map fun root => ({ d with root }, rest)
  | _ => none

/-- The document after all lines of a text. -/
def lines? (levels : Nat) : (fuel : Nat) → Draft → Text → Option Table
  | 0, _, _ => none
  | fuel + 1, d, t =>
    match skipSpace t with
    | [] => some d.root
    | c :: rest =>
      let line := if c = '[' then d.header? rest else d.member? levels (c :: rest)
      match line with
      | none => none
      | some (d, rest) =>
        match afterLine? rest with
        | none => none
        | some rest => lines? levels fuel d rest

end Draft

/-- The table of a document. A byte order mark may stand at its start. -/
def read? (t : Text) : Option Table :=
  let t := match t with
    | '\ufeff' :: rest => rest
    | _ => t
  Draft.lines? nestingLimit (t.length + 1) .empty t

end Toml

end PocketCalculator
