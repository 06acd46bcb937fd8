import PocketCalculator.Host.Path

/-!
# What the calculator asks of its surroundings

The program reads and writes files, talks to its user, uses a clipboard and looks at a clock. It
is written for any host that can do these things.
-/

namespace PocketCalculator

/-- Why a file cannot be read or removed. -/
inductive FileError where
  /-- There is no such file. -/
  | missing
  /-- There is something else at the path or on the way to it, or access is denied. -/
  | refused
deriving DecidableEq, Repr

/-- Why the clipboard does not take a text. -/
inductive ClipboardError where
  /-- It cannot be opened. -/
  | closed
  /-- It is open and refuses the text. -/
  | refused
deriving DecidableEq, Repr

/-- What a host can do, in a monad of its own. -/
structure Host (m : Type → Type) where
  /-- The bytes of a file. -/
  readFile : Path → m (Except FileError ByteArray)
  /-- Replaces the content of a file or makes the file; answers whether that worked. -/
  writeFile : Path → ByteArray → m Bool
  /-- Makes a folder and the folders above it as far as they are missing; answers whether the
  folder is there. -/
  makeFolders : Path → m Bool
  /-- Removes a file. -/
  removeFile : Path → m (Except FileError Unit)
  /-- Shows a text to the user. -/
  print : Text → m Unit
  /-- Shows a line to the user apart from the results. -/
  complain : Text → m Unit
  /-- Notes a line about a problem that does not stop the program. -/
  warn : Text → m Unit
  /-- Feeds the lines of the user, without their ends, to a function until it answers false or
  there are no more. A line that is no text is `none`. -/
  foldLines : {σ : Type} → (σ → Option Text → m (σ × Bool)) → σ → m σ
  /-- Puts a text on the clipboard. -/
  copy : Text → m (Except ClipboardError Unit)
  /-- The time in milliseconds. -/
  now : m Int
  /-- Waits for some milliseconds. -/
  wait : Nat → m Unit

end PocketCalculator
