import PocketCalculator.History.Ledger
import PocketCalculator.Host.Basic

/-!
# Stores

A store keeps a ledger: in memory, or in a file of a host. A file that does not exist holds the
empty ledger. A file that holds none is never overwritten.
-/

namespace PocketCalculator

/-- Why a store fails. -/
inductive StoreError where
  /-- The file cannot be read or written. -/
  | file (path : Path)
  /-- The file holds no ledger. -/
  | content (path : Path)
deriving DecidableEq, Repr

/-- The text that reports the failure of a store. -/
def StoreError.message : StoreError → String
  | .file path => s!"history I/O error on {String.ofList path}"
  | .content path => s!"history file {String.ofList path} is not valid JSON"

/-- What a store can do. -/
structure Store (m : Type → Type) where
  /-- Inserts an entry and answers it as it is stored. -/
  insert : Entry → m (Except StoreError Entry)
  /-- All entries, newest first. -/
  entries : m (Except StoreError (List Entry))
  /-- Removes all entries. -/
  clear : m (Except StoreError Unit)

namespace Store

/-- A store that keeps its ledger in memory. -/
def memory : Store (StateM Ledger) where
  insert e := do
    let l ← get
    set (l.insert e)
    return .ok (l.withId e)
  entries := do return .ok (Ledger.newestFirst (← get))
  clear := do
    set ([] : Ledger)
    return .ok ()

section File

variable {m : Type → Type} [Monad m] (host : Host m) (path : Path)

/-- The ledger in a file. -/
def load : m (Except StoreError Ledger) := do
  match ← host.readFile path with
  | .error .missing => return .ok []
  | .error .refused => return .error (.file path)
  | .ok bytes =>
    match Ledger.read? (symbols bytes) with
    | some l => return .ok l
    | none => return .error (.content path)

/-- Writes a ledger to a file, whose folder is made if it is missing. -/
def save (l : Ledger) : m (Except StoreError Unit) := do
  let there ← match path.parent? with
    | some folder => host.makeFolders folder
    | none => pure true
  if there then
    if ← host.writeFile path (bytesOfText l.text) then return .ok ()
  return .error (.file path)

/-- A store that keeps its ledger in a file. -/
def file : Store m where
  insert e := do
    match ← load host path with
    | .error err => return .error err
    | .ok l =>
      match ← save host path (l.insert e) with
      | .error err => return .error err
      | .ok _ => return .ok (l.withId e)
  entries := do
    match ← load host path with
    | .error err => return .error err
    | .ok l => return .ok l.newestFirst
  clear := do
    match ← host.removeFile path with
    | .error .refused => return .error (.file path)
    | _ => return .ok ()

end File

end Store

end PocketCalculator
