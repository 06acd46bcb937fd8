import PocketCalculator.Text.Basic

/-!
# Paths

A path is a text whose names are separated by slashes. An empty name and a dot stand for nothing,
two dots for the folder above.
-/

namespace PocketCalculator

/-- The path of a file or folder, as written. -/
abbrev Path := Text

namespace Path

/-- Whether a path starts at the root. -/
def isAbsolute (p : Path) : Bool :=
  p.head? = some '/'

/-- A path inside a folder, unless it is absolute. -/
def join (folder p : Path) : Path :=
  if isAbsolute p then p
  else if folder.isEmpty ∨ folder.getLast? = some '/' then folder ++ p
  else folder ++ '/' :: p

/-- A path read backwards, without the slashes and dots at its end that stand for nothing. -/
def withoutEnd : Text → Text
  | '/' :: c :: rest => withoutEnd (c :: rest)
  | '.' :: '/' :: rest => withoutEnd ('/' :: rest)
  | rest => rest

/-- The path without its last name; an empty path and the root have none. -/
def parent? (p : Path) : Option Path :=
  let backwards := withoutEnd p.reverse
  if backwards = [] ∨ backwards = ['/'] then none
  else some (withoutEnd (backwards.dropWhile (· != '/'))).reverse

/-- The names of a path, without those that stand for nothing. -/
def names (p : Path) : List Text :=
  (p.splitBy fun a b => a != '/' && b != '/').filter fun name =>
    name != ['/'] && name != ['.']

/-- Whether the end of a path says that it is a folder. -/
def isFolderPath (p : Path) : Bool :=
  match p.reverse with
  | '/' :: _ => true
  | '.' :: '/' :: _ => true
  | ['.'] => true
  | _ => p.names.getLast? = some ['.', '.']

end Path

end PocketCalculator
