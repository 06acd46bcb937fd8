import PocketCalculator.Text.Basic

/-!
# Text from bytes

A file that should hold text may hold any bytes. It is read as a list of symbols: the characters
that are there in UTF-8, and a mark for every byte that belongs to none.
-/

namespace PocketCalculator

/-- A character, or a byte that belongs to no character. -/
abbrev Symbol := Option Char

/-- The character at the start of some bytes, and the number of its bytes. -/
def leadingChar? (bytes : List UInt8) : Option (Char × Nat) :=
  (List.range' 1 4).findSome? fun count =>
    match (String.fromUTF8? ⟨(bytes.take count).toArray⟩).map String.toList with
    | some [c] => some (c, count)
    | _ => none

/-- The symbols of bytes, of which the first `skip` belong to the character before them. -/
def symbolsFrom : (skip : Nat) → List UInt8 → List Symbol
  | _, [] => []
  | skip + 1, _ :: rest => symbolsFrom skip rest
  | 0, b :: rest =>
    match leadingChar? (b :: rest) with
    | some (c, count) => some c :: symbolsFrom (count - 1) rest
    | none => none :: symbolsFrom 0 rest

/-- The symbols of a file. All of them are characters if the file is text. -/
def symbols (bytes : ByteArray) : List Symbol :=
  match String.fromUTF8? bytes with
  | some s => s.toList.map some
  | none => symbolsFrom 0 bytes.toList

/-- The text of a file, if it is one. -/
def textOfBytes? (bytes : ByteArray) : Option Text :=
  (String.fromUTF8? bytes).map String.toList

/-- The bytes of a text. -/
def bytesOfText (t : Text) : ByteArray :=
  (String.ofList t).toUTF8

end PocketCalculator
