import PocketCalculator.Keypad.Key
import PocketCalculator.Text.Blank
import PocketCalculator.Text.DecimalDigit

/-!
# Key scripts

A script is a text with a character for each key press; blank characters do not count. A script
with an unknown key has no keys at all. It is looked through for a character that no script can
hold before any key is read, so that such a character is reported before a decimal digit of another
script than ASCII, wherever the two stand.
-/

namespace PocketCalculator

/-- A character of a script that is no key, and the number of characters before it. -/
structure UnknownKey where
  key : Char
  position : Nat
deriving DecidableEq, Repr

/-- The text that reports an unknown key. -/
def UnknownKey.message (e : UnknownKey) : String :=
  s!"unrecognized key '{e.key}' at position {e.position}"

namespace Script

/-! ### What a script may hold -/

/-- The characters that a script may hold besides decimal digits and blanks. -/
def signs : Text :=
  ['.', ',', '+', '-', '−', '*', 'x', '×', '/', '÷', '%', '(', ')', '=', '<', 'C', '~']

/-- Whether a script may hold a character. -/
def isAdmissible (c : Char) : Bool :=
  isDecimalDigit c || isBlank c || signs.contains c

/-- Whether a script may hold all characters of a text. -/
def admits (t : Text) : Bool :=
  t.all isAdmissible

/-- The first character of a text that makes no script on its own, and its place. -/
def outsider? (t : Text) : Option UnknownKey :=
  (t.zipIdx.find? fun p => !admits [p.1]).map fun p => ⟨p.1, p.2⟩

/-! ### The keys of a script -/

/-- Reads the keys of a text that stands at a position of a script. -/
def readFrom : (position : Nat) → Text → Except UnknownKey (List Key)
  | _, [] => .ok []
  | position, c :: t =>
    if isBlank c then readFrom (position + 1) t
    else
      match Key.ofChar? c with
      | none => .error ⟨c, position⟩
      | some key => (readFrom (position + 1) t).map (key :: ·)

/-- Reads a script. -/
def read (t : Text) : Except UnknownKey (List Key) :=
  if admits t then readFrom 0 t
  else .error ((outsider? t).getD ⟨'?', 0⟩)

end Script

end PocketCalculator
