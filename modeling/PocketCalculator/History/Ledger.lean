import PocketCalculator.Json.Print
import PocketCalculator.Json.Read

/-!
# The ledger of past calculations

A ledger lists entries in the order of their first insertion. The ledger gives an entry its id,
one above the largest id so far; an entry that comes with the id of another takes its place. The
newest entries are those with the latest time, among equal times those inserted last. A ledger is
written as a JSON array with one record for each entry.
-/

namespace PocketCalculator

/-- A past calculation. -/
structure Entry where
  /-- Given by the ledger at the first insertion. -/
  id : Option Int
  formula : Text
  result : Text
  /-- Milliseconds since the start of the epoch. -/
  time : Int
deriving DecidableEq, Repr

namespace Entry

/-- The names of the fields of a record, in order. -/
def fieldNames : List Text :=
  ["id".toList, "formula".toList, "result".toList, "timestamp".toList]

/-- The smallest number in a record. -/
def minInt : Int := -0x8000000000000000

/-- The largest number in a record. -/
def maxInt : Int := 0x7fffffffffffffff

/-- The entry of a record, whose id may be missing or null. -/
def ofJson? (v : Json) : Option Entry :=
  match v.fields? fieldNames with
  | some [id, some formula, some result, some time] =>
    match readId id, formula.text?, result.text?, time.intIn? minInt maxInt with
    | some id, some formula, some result, some time => some ⟨id, formula, result, time⟩
    | _, _, _, _ => none
  | _ => none
where
  /-- The id of a record, if it is one or there is none. -/
  readId : Option Json → Option (Option Int)
    | none => some none
    | some .null => some none
    | some v => (v.intIn? minInt maxInt).map some

/-- The record of an entry, without an id if there is none. -/
def toJson (e : Entry) : Json :=
  .object <|
    (e.id.map fun id => (some "id".toList, Json.ofInt id)).toList ++
      [(some "formula".toList, .ofText e.formula), (some "result".toList, .ofText e.result),
       (some "timestamp".toList, .ofInt e.time)]

end Entry

/-- Entries in the order of their first insertion. -/
abbrev Ledger := List Entry

namespace Ledger

/-- One above the largest id, or one if there is no id. -/
def nextId (l : Ledger) : Int :=
  ((l.filterMap Entry.id).max?).getD 0 + 1

/-- Replaces the first entry that has an id by another. -/
def replaceFirst (id : Int) (e : Entry) : Ledger → Ledger
  | [] => []
  | old :: rest => if old.id = some id then e :: rest else old :: replaceFirst id e rest

/-- The entry as it is stored: with an id. -/
def withId (l : Ledger) (e : Entry) : Entry :=
  match e.id with
  | some _ => e
  | none => { e with id := some l.nextId }

theorem withId_of_some (l : Ledger) {e : Entry} {id : Int} (h : e.id = some id) :
    l.withId e = e := by
  simp [withId, h]

theorem withId_of_none (l : Ledger) {e : Entry} (h : e.id = none) :
    l.withId e = { e with id := some l.nextId } := by
  simp [withId, h]

/-- The ledger with an entry inserted, or in the place of the entry with the same id. -/
def insert (l : Ledger) (e : Entry) : Ledger :=
  match e.id with
  | some id => if l.any (·.id = some id) then l.replaceFirst id e else l ++ [e]
  | none => l ++ [l.withId e]

/-- An entry without an id comes last. -/
theorem insert_of_id_eq_none (l : Ledger) {e : Entry} (h : e.id = none) :
    l.insert e = l ++ [l.withId e] := by
  simp [insert, h]

/-- The entries, newest first. -/
def newestFirst (l : Ledger) : List Entry :=
  l.reverse.mergeSort fun a b => b.time ≤ a.time

/-- The text of a ledger. -/
def text (l : Ledger) : Text :=
  (Json.array (l.map Entry.toJson)).pretty

/-- The ledger of a JSON array. -/
def ofJson? : Json → Option Ledger
  | .array items => items.mapM Entry.ofJson?
  | _ => none

/-- The ledger that a text spells. -/
def read? (xs : List Symbol) : Option Ledger :=
  (Json.read? xs).bind ofJson?

end Ledger

end PocketCalculator
