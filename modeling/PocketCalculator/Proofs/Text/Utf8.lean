import PocketCalculator.Text.Utf8

/-!
# The bytes of a text

The bytes of a text are read as that text, and their symbols are its characters.
-/

namespace PocketCalculator

theorem fromUTF8?_toUTF8 (s : String) : String.fromUTF8? s.toUTF8 = some s :=
  dif_pos s.isValidUTF8

theorem symbols_bytesOfText (t : Text) : symbols (bytesOfText t) = t.map some := by
  unfold symbols bytesOfText
  rw [fromUTF8?_toUTF8]
  dsimp only
  rw [String.toList_ofList]

theorem textOfBytes?_bytesOfText (t : Text) : textOfBytes? (bytesOfText t) = some t := by
  rw [textOfBytes?, bytesOfText, fromUTF8?_toUTF8, Option.map_some, String.toList_ofList]

end PocketCalculator
