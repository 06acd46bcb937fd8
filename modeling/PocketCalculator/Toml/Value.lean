import PocketCalculator.Text.Basic

/-!
# TOML values and tables

A document is built up line by line: a header opens a table, a key with dots goes through tables
that it makes on its way. What may still be added to a table depends on how it was made, so every
table remembers that.
-/

namespace PocketCalculator

/-- How a table was made. -/
inductive TableKind where
  /-- By a header of its own, or as the document itself. -/
  | header
  /-- By the header of a table inside it. -/
  | implied
  /-- By a key with dots. -/
  | dotted
  /-- By a value in braces, which nothing can be added to. -/
  | inline
deriving DecidableEq, Repr

/-- A TOML value. Of a number that is no integer only its range is kept, of dates and times
nothing. -/
inductive Toml where
  | string (content : Text)
  | integer (n : Int)
  | float (inRange : Bool)
  | bool (b : Bool)
  | dateTime
  /-- An array, and whether headers made it. -/
  | array (items : List Toml) (ofTables : Bool)
  | table (kind : TableKind) (entries : List (Text × Toml))
deriving Inhabited

namespace Toml

/-- A table that is being built. -/
structure Table where
  kind : TableKind
  entries : List (Text × Toml)

namespace Table

/-- The value of a key. -/
def find? (t : Table) (key : Text) : Option Toml :=
  t.entries.lookup key

/-- Gives a key a value. -/
def set (t : Table) (key : Text) (v : Toml) : Table :=
  if (t.find? key).isSome then
    { t with entries := t.entries.map fun e => if e.1 = key then (key, v) else e }
  else { t with entries := t.entries ++ [(key, v)] }

/-- A table as a value. -/
def value (t : Table) : Toml :=
  .table t.kind t.entries

/-- Changes the table at the end of a path and makes the tables that are missing on the way. In an
array that headers made, the way leads through the last table. A path of a key with dots may not
enter a table that has a header. -/
def change (byKey : Bool) (f : Table → Option Table) : List Text → Table → Option Table
  | [], t => f t
  | key :: path, t =>
    match t.find? key with
    | none =>
      (change byKey f path ⟨if byKey then .dotted else .implied, []⟩).map fun inner =>
        t.set key inner.value
    | some (.table kind entries) =>
      if kind = .inline ∨ (byKey ∧ kind = .header) then none
      else (change byKey f path ⟨kind, entries⟩).map fun inner => t.set key inner.value
    | some (.array items true) =>
      match items.getLast? with
      | some (.table kind entries) =>
        (change byKey f path ⟨kind, entries⟩).map fun inner =>
          t.set key (.array (items.dropLast ++ [inner.value]) true)
      | _ => none
    | _ => none

/-- Adds a key with a value. With dots before it, the table that it is added to must have been
made by such keys. -/
def insert (path : List Text) (key : Text) (v : Toml) (t : Table) : Option Table :=
  change true (fun inner =>
    if (!path.isEmpty && inner.kind != .dotted) || (inner.find? key).isSome then none
    else some (inner.set key v)) path t

/-- Opens the table of a header. It may exist already if headers of tables inside it made it. -/
def openTable (path : List Text) (key : Text) (t : Table) : Option Table :=
  change false (fun outer =>
    match outer.find? key with
    | none => some (outer.set key (.table .header []))
    | some (.table .implied entries) => some (outer.set key (.table .header entries))
    | _ => none) path t

/-- Opens one more table of an array that headers make. -/
def openItem (path : List Text) (key : Text) (t : Table) : Option Table :=
  change false (fun outer =>
    match outer.find? key with
    | none => some (outer.set key (.array [.table .header []] true))
    | some (.array items true) => some (outer.set key (.array (items ++ [.table .header []]) true))
    | _ => none) path t

end Table

end Toml

end PocketCalculator
