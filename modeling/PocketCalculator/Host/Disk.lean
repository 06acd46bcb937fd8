import PocketCalculator.Host.Basic

/-!
# Files in a tree

The files and folders of a host as a value. A path is followed name by name from the root or from
the working folder, through folders that exist.
-/

namespace PocketCalculator

/-- A place in the tree: the names on the way from the root. -/
abbrev Location := List Text

/-- What is at a place. -/
inductive Node where
  | file (content : ByteArray)
  | folder

/-- The files and folders, and the folder that relative paths start from. -/
structure Disk where
  nodes : List (Location × Node)
  workingFolder : Location

namespace Disk

/-- What is at a place; the root is always a folder. -/
def node? (d : Disk) (loc : Location) : Option Node :=
  if loc.isEmpty then some .folder else d.nodes.lookup loc

/-- Removes what is at a place. -/
def erase (d : Disk) (loc : Location) : Disk :=
  { d with nodes := d.nodes.filter fun e => e.1 != loc }

/-- Puts a file or folder at a place. -/
def put (d : Disk) (loc : Location) (n : Node) : Disk :=
  { d with nodes := (loc, n) :: (d.erase loc).nodes }

theorem lookup_filter_of_ne {nodes : List (Location × Node)} {loc other : Location}
    (h : other ≠ loc) : (nodes.filter fun e => e.1 != loc).lookup other = nodes.lookup other := by
  induction nodes with
  | nil => rfl
  | cons e nodes ih =>
    obtain ⟨place, n⟩ := e
    by_cases hp : place = loc
    · subst hp
      have ho : (other == place) = false := by simpa using h
      simp [ih, List.lookup_cons, ho]
    · simp [hp, ih, List.lookup_cons]

/-- What is put at a place is there. -/
theorem node?_put_self (d : Disk) {loc : Location} (h : loc ≠ []) (n : Node) :
    (d.put loc n).node? loc = some n := by
  simp [node?, put, h]

/-- Other places keep what they hold. -/
theorem node?_put_of_ne (d : Disk) {loc other : Location} (h : other ≠ loc) (n : Node) :
    (d.put loc n).node? other = d.node? other := by
  have ho : (other == loc) = false := by simpa using h
  simp [node?, put, erase, List.lookup_cons, ho, lookup_filter_of_ne h]

/-- The place that a name leads to. -/
def enter (loc : Location) (name : Text) : Location :=
  if name = ['.', '.'] then loc.dropLast else loc ++ [name]

/-- The place at the end of some names; all on the way but the last have to be folders. -/
def follow (d : Disk) : Location → List Text → Except FileError Location
  | loc, [] => .ok loc
  | loc, name :: rest =>
    match d.node? loc with
    | some .folder => d.follow (enter loc name) rest
    | some (.file _) => .error .refused
    | none => .error .missing

/-- The place where a path starts. -/
def origin (d : Disk) (p : Path) : Location :=
  if p.isAbsolute then [] else d.workingFolder

/-- The place of a path, at which there may be nothing. -/
def locate (d : Disk) (p : Path) : Except FileError Location :=
  if p.isEmpty then .error .missing
  else if p.contains '\x00' then .error .refused
  else d.follow (d.origin p) p.names

/-- The bytes of a file. -/
def read (d : Disk) (p : Path) : Except FileError ByteArray :=
  match d.locate p with
  | .error e => .error e
  | .ok loc =>
    match d.node? loc with
    | none => .error .missing
    | some .folder => .error .refused
    | some (.file content) => if p.isFolderPath then .error .refused else .ok content

/-- Replaces the content of a file or makes the file, if its folder exists. -/
def write (d : Disk) (p : Path) (content : ByteArray) : Option Disk :=
  match d.locate p with
  | .error _ => none
  | .ok loc =>
    match d.node? loc with
    | some .folder => none
    | _ => if p.isFolderPath then none else some (d.put loc (.file content))

/-- Removes a file. -/
def remove (d : Disk) (p : Path) : Except FileError Disk :=
  match d.read p, d.locate p with
  | .ok _, .ok loc => .ok (d.erase loc)
  | .error e, _ => .error e
  | _, .error e => .error e

/-- Makes the folders on the way of some names as far as they are missing. -/
def makeFoldersAlong (d : Disk) : Location → List Text → Option Disk
  | _, [] => some d
  | loc, name :: rest =>
    let next := enter loc name
    match d.node? next with
    | some .folder => d.makeFoldersAlong next rest
    | some (.file _) => none
    | none => (d.put next .folder).makeFoldersAlong next rest

/-- Makes a folder and the folders above it as far as they are missing. -/
def makeFolders (d : Disk) (p : Path) : Option Disk :=
  if p.contains '\x00' then none else d.makeFoldersAlong (d.origin p) p.names

end Disk

end PocketCalculator
