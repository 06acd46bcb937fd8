import PocketCalculator.Editor.State
import PocketCalculator.Json.Print
import PocketCalculator.Json.Read
import PocketCalculator.Number.Plain

/-!
# Snapshots

A snapshot is the state of the editor as a JSON record. It is read back only if it is a state that
an editor can be in: the mark is known, an error comes with the error marker, and the number of
open parentheses is that of the formula.
-/

namespace PocketCalculator

/-- Why a text is no snapshot. -/
inductive SnapshotError where
  /-- It is no JSON record with the right fields. -/
  | malformed
  /-- The mark has no such name. -/
  | unknownMark (name : Text)
  /-- It has the mark of an error but not the error marker. -/
  | noErrorMarker (formula : Text)
  /-- The formula has another number of open parentheses. -/
  | miscounted (recorded : Nat) (formula : Text)
deriving DecidableEq, Repr

namespace SnapshotError

/-- What is inconsistent about a snapshot, if it is well formed. -/
def message? : SnapshotError → Option String
  | .malformed => none
  | .unknownMark name =>
    some s!"inconsistent calculator state: unknown last key '{String.ofList name}'"
  | .noErrorMarker formula =>
    some ("inconsistent calculator state: error state recorded but formula is " ++
      s!"'{String.ofList formula}'")
  | .miscounted recorded formula =>
    some (s!"inconsistent calculator state: {recorded} open parentheses recorded but formula " ++
      s!"'{String.ofList formula}' has {unmatched formula}")

end SnapshotError

/-- The fields of a snapshot. -/
structure Snapshot where
  result : Text
  previous : Text
  lastKey : Text
  formula : Text
  openCount : Nat
deriving DecidableEq, Repr

namespace Snapshot

/-- The names of the fields, in order. -/
def fieldNames : List Text :=
  ["result".toList, "previous_calculation".toList, "last_key".toList, "displayed_formula".toList,
   "open_parentheses_count".toList]

/-- The largest number of open parentheses that is read. -/
def maxCount : Nat := 0xffffffff

/-- The fields of a JSON record. A missing number of open parentheses counts as zero. -/
def ofJson? (v : Json) : Option Snapshot :=
  match v.fields? fieldNames with
  | some [some result, some previous, some lastKey, some formula, count] =>
    match result.text?, previous.text?, lastKey.text?, formula.text?,
      (count.getD (.ofInt 0)).intIn? 0 maxCount with
    | some result, some previous, some lastKey, some formula, some count =>
      some ⟨result, previous, lastKey, formula, count.toNat⟩
    | _, _, _, _, _ => none
  | _ => none

/-- A JSON record with the fields of a snapshot. -/
def toJson (shot : Snapshot) : Json :=
  .object <| (fieldNames.map some).zip
    [.ofText shot.result, .ofText shot.previous, .ofText shot.lastKey, .ofText shot.formula,
     .ofInt shot.openCount]

/-- The snapshot of a state. -/
def ofState (st : State) : Snapshot :=
  ⟨st.readout, st.evaluated, st.mark.name.toList, st.formula, st.openCount⟩

/-- The state of a consistent snapshot. -/
def toState (shot : Snapshot) : Except SnapshotError State :=
  match Mark.ofName? (String.ofList shot.lastKey) with
  | none => .error (.unknownMark shot.lastKey)
  | some mark =>
    if mark = .afterError ∧ shot.formula ≠ errorMarker then .error (.noErrorMarker shot.formula)
    else if unmatched shot.formula ≠ shot.openCount then
      .error (.miscounted shot.openCount shot.formula)
    else .ok ⟨shot.formula, shot.result, shot.previous, shot.openCount, mark⟩

end Snapshot

namespace State

/-- The text of the snapshot of a state. -/
def save (st : State) : Text :=
  (Snapshot.ofState st).toJson.compact

/-- The state whose snapshot a text is. -/
def restore (t : Text) : Except SnapshotError State :=
  match (Json.read? (t.map some)).bind Snapshot.ofJson? with
  | none => .error .malformed
  | some shot => shot.toState

end State

end PocketCalculator
