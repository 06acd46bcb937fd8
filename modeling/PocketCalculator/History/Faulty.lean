import PocketCalculator.History.Ledger
import PocketCalculator.History.Writer

/-!
# A store with faults

A ledger in memory whose first insertions fail and which breaks down at a given formula: what the
writer does about faults can be seen from what is in the ledger at the end.
-/

namespace PocketCalculator

/-- A ledger with the faults that are still to come. -/
structure FaultyLedger where
  ledger : Ledger := []
  /-- How many insertions fail before one succeeds. -/
  failures : Nat := 0
  /-- The formula at which the store breaks down. -/
  fatal : Option Text := none

namespace FaultyLedger

/-- An attempt to insert an entry. -/
def attempt (e : Entry) : StateM FaultyLedger Outcome := do
  let store ← get
  if store.fatal = some e.formula then return .crashed
  else if 0 < store.failures then
    set { store with failures := store.failures - 1 }
    return .failed
  else
    set { store with ledger := store.ledger.insert e }
    return .stored

/-- The ledger after a writer has done what it was sent, and the writer. -/
def afterWriting (store : FaultyLedger) (w : Writer) : Writer × FaultyLedger :=
  (w.drain attempt fun _ _ => pure ()).run store

end FaultyLedger

end PocketCalculator
