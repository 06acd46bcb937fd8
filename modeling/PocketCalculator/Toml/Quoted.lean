import PocketCalculator.Text.Basic

/-!
# TOML strings

Strings stand between quotes of one of two kinds, of which only the double ones allow escapes, and
between one quote or three on each side, of which only three allow line breaks.
-/

namespace PocketCalculator

namespace Toml

/-- Whether a character is a blank inside a line. -/
def isLineBlank (c : Char) : Bool :=
  c == ' ' || c == '\t'

/-- Whether a character may stand in a line of a string or of a comment. -/
def isLineChar (c : Char) : Bool :=
  c == '\t' || (' ' ≤ c && c != '\x7f')

/-- What follows a line break at the start of a text. -/
def afterLineBreak? : Text → Option Text
  | '\n' :: rest => some rest
  | '\r' :: '\n' :: rest => some rest
  | _ => none

/-- The value of a hexadecimal digit. -/
def hexValue? (c : Char) : Option Nat :=
  if c.isDigit then some (c.toNat - '0'.toNat)
  else if 'a' ≤ c ∧ c ≤ 'f' then some (c.toNat - 'a'.toNat + 10)
  else if 'A' ≤ c ∧ c ≤ 'F' then some (c.toNat - 'A'.toNat + 10)
  else none

/-- The character whose code is written by the first `count` hexadecimal digits, and what follows
them. -/
def codePoint? (count : Nat) (t : Text) : Option (Char × Text) :=
  let digits := t.take count
  match digits.mapM hexValue? with
  | none => none
  | some values =>
    let code := values.foldl (16 * · + ·) 0
    if digits.length = count ∧ code.isValidChar then some (Char.ofNat code, t.drop count) else none

/-- The character of an escape, whose backslash has been read, and what follows it. -/
def escape? : Text → Option (Char × Text)
  | '"' :: rest => some ('"', rest)
  | '\\' :: rest => some ('\\', rest)
  | 'b' :: rest => some ('\x08', rest)
  | 't' :: rest => some ('\t', rest)
  | 'n' :: rest => some ('\n', rest)
  | 'f' :: rest => some ('\x0c', rest)
  | 'r' :: rest => some ('\r', rest)
  | 'e' :: rest => some ('\x1b', rest)
  | 'x' :: rest => codePoint? 2 rest
  | 'u' :: rest => codePoint? 4 rest
  | 'U' :: rest => codePoint? 8 rest
  | _ => none

/-- The rest of a string in single quotes on one line: its content and what follows it. -/
def literalLine? (t : Text) : Option (Text × Text) :=
  let content := t.takeWhile fun c => isLineChar c && c != '\''
  match t.drop content.length with
  | '\'' :: rest => some (content, rest)
  | _ => none

/-- The rest of a string in double quotes on one line, after the characters in `done`, last
first: its content and what follows it. -/
def basicLineFrom (done : Text) : (fuel : Nat) → Text → Option (Text × Text)
  | 0, _ => none
  | fuel + 1, t =>
    match t with
    | [] => none
    | '"' :: rest => some (done.reverse, rest)
    | '\\' :: rest =>
      match escape? rest with
      | some (c, rest) => basicLineFrom (c :: done) fuel rest
      | none => none
    | c :: rest => if isLineChar c then basicLineFrom (c :: done) fuel rest else none

/-- The rest of a string in double quotes on one line. -/
def basicLine? (t : Text) : Option (Text × Text) :=
  basicLineFrom [] (t.length + 1) t

/-- What follows a backslash at the end of a line: the line break and all blanks and line breaks
after it are skipped. -/
def afterJoinedLines? (t : Text) : Option Text :=
  match afterLineBreak? (t.dropWhile isLineBlank) with
  | some rest => some (skip rest.length rest)
  | none => none
where
  /-- Skips blanks and line breaks. -/
  skip : (fuel : Nat) → Text → Text
    | 0, t => t
    | fuel + 1, t =>
      let t := t.dropWhile isLineBlank
      match afterLineBreak? t with
      | some rest => skip fuel rest
      | none => t

/-- The rest of a string between three quotes, after the characters in `done`, last first. Up to
two quotes may stand right before the closing three. Line breaks are kept as they are. -/
def linesFrom (quote : Char) (done : Text) : (fuel : Nat) → Text → Option (Text × Text)
  | 0, _ => none
  | fuel + 1, t =>
    match t with
    | [] => none
    | '\r' :: '\n' :: rest => linesFrom quote ('\n' :: '\r' :: done) fuel rest
    | c :: rest =>
      if c = quote then
        let count := (t.takeWhile (· = quote)).length
        if count < 3 then linesFrom quote (c :: done) fuel rest
        else
          let extra := min 2 (count - 3)
          some (done.reverse ++ List.replicate extra quote, t.drop (3 + extra))
      else if quote = '"' ∧ c = '\\' then
        match afterJoinedLines? rest with
        | some rest => linesFrom quote done fuel rest
        | none =>
          match escape? rest with
          | some (e, rest) => linesFrom quote (e :: done) fuel rest
          | none => none
      else if c = '\n' ∨ isLineChar c then linesFrom quote (c :: done) fuel rest
      else none

/-- The rest of a string between three quotes. A line break right after the opening is left out. -/
def lines? (quote : Char) (t : Text) : Option (Text × Text) :=
  linesFrom quote [] (t.length + 1) ((afterLineBreak? t).getD t)

/-- A string at the start of a text, and what follows it. -/
def quoted? : Text → Option (Text × Text)
  | '"' :: '"' :: '"' :: rest => lines? '"' rest
  | '\'' :: '\'' :: '\'' :: rest => lines? '\'' rest
  | '"' :: rest => basicLine? rest
  | '\'' :: rest => literalLine? rest
  | _ => none

end Toml

end PocketCalculator
