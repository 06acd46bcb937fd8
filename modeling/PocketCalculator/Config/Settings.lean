import PocketCalculator.Host.Path
import PocketCalculator.Number.Separators
import PocketCalculator.Toml.Value

/-!
# Settings

What the configuration file can set, and how it is read from the tables of a TOML document: every
setting is optional, others are ignored. A section may also be an array of its settings in order.
-/

namespace PocketCalculator

/-- The settings of the calculator. -/
structure Settings where
  separators : Separators := {}
  /-- Whether calculations are recorded. -/
  recording : Bool := true
  historyPath : Option Path := none
  /-- How often a failed record is tried again. -/
  maxRetries : Nat := 3
  statePath : Option Path := none
deriving DecidableEq, Repr

namespace Toml

/-- The smallest integer that can be ignored. -/
def minIgnored : Int := -0x80000000000000000000000000000000

/-- The largest integer that can be ignored. -/
def maxIgnored : Int := 0xffffffffffffffffffffffffffffffff

mutual

/-- Whether a value can be ignored: all its numbers are within range. -/
def isReadable : Toml → Bool
  | .integer n => minIgnored ≤ n && n ≤ maxIgnored
  | .float inRange => inRange
  | .array items _ => areReadable items
  | .table _ entries => entriesAreReadable entries
  | _ => true

/-- Whether all items of an array can be ignored. -/
def areReadable : List Toml → Bool
  | [] => true
  | v :: rest => v.isReadable && areReadable rest

/-- Whether all values of a table can be ignored. -/
def entriesAreReadable : List (Text × Toml) → Bool
  | [] => true
  | (_, v) :: rest => v.isReadable && entriesAreReadable rest

end

/-- The values of the named settings of a section, where a setting may be missing. A date has the
form of a table with none of them. -/
def settings? (names : List Text) : Toml → Option (List (Option Toml))
  | .table _ entries =>
    if entriesAreReadable (entries.filter fun e => !names.contains e.1) then
      some (names.map (List.lookup · entries))
    else none
  | .array items _ =>
    let given := items.take names.length
    some (given.map some ++ List.replicate (names.length - given.length) none)
  | .dateTime => some (names.map fun _ => none)
  | _ => none

/-- The content of a string. -/
def text? : Toml → Option Text
  | .string content => some content
  | _ => none

/-- A truth value. -/
def bool? : Toml → Option Bool
  | .bool b => some b
  | _ => none

/-- A string of one character. -/
def char? : Toml → Option Char
  | .string [c] => some c
  | _ => none

/-- An integer that fits into 32 bits without sign. -/
def word? : Toml → Option Nat
  | .integer n => if 0 ≤ n ∧ n ≤ 0xffffffff then some n.toNat else none
  | _ => none

/-- A setting that may be missing, but not have another type. -/
def optional {α : Type} (read? : Toml → Option α) : Option Toml → Option (Option α)
  | none => some none
  | some v => (read? v).map some

end Toml

namespace Settings

/-- Takes over the settings of the section on numbers. -/
def withFormat (s : Settings) (v : Toml) : Option Settings := do
  match ← v.settings? ["decimal_separator".toList, "grouping_separator".toList] with
  | [decimal, grouping] =>
    let decimal ← Toml.optional Toml.char? decimal
    let grouping ← Toml.optional Toml.char? grouping
    let old := s.separators
    return { s with separators := ⟨decimal.getD old.decimal, grouping.getD old.grouping⟩ }
  | _ => none

/-- Takes over the settings of the section on the history. -/
def withHistory (s : Settings) (v : Toml) : Option Settings := do
  match ← v.settings? ["enabled".toList, "path".toList, "max_retries".toList] with
  | [enabled, path, maxRetries] =>
    let enabled ← Toml.optional Toml.bool? enabled
    let path ← Toml.optional Toml.text? path
    let maxRetries ← Toml.optional Toml.word? maxRetries
    return { s with
      recording := enabled.getD s.recording
      historyPath := path
      maxRetries := maxRetries.getD s.maxRetries }
  | _ => none

/-- Takes over the settings of the section on sessions. -/
def withSession (s : Settings) (v : Toml) : Option Settings := do
  match ← v.settings? ["state_path".toList] with
  | [statePath] =>
    let statePath ← Toml.optional Toml.text? statePath
    return { s with statePath }
  | _ => none

/-- Takes over a section if it is there. -/
def withSection (read? : Settings → Toml → Option Settings) (v : Option Toml) (s : Settings) :
    Option Settings :=
  match v with
  | none => some s
  | some v => read? s v

/-- The settings of a document. -/
def ofDocument? (document : Toml.Table) : Option Settings := do
  match ← document.value.settings? ["format".toList, "history".toList, "session".toList] with
  | [format, history, session] =>
    let s ← withSection withFormat format {}
    let s ← withSection withHistory history s
    withSection withSession session s
  | _ => none

end Settings

end PocketCalculator
