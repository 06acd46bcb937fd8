import PocketCalculator.Command.Arguments
import PocketCalculator.Command.Copy
import PocketCalculator.Config.Load
import PocketCalculator.Editor.Press
import PocketCalculator.Editor.Snapshot
import PocketCalculator.History.Store
import PocketCalculator.History.Writer
import PocketCalculator.Keypad.Script

/-!
# Sessions

A session restores the saved state, presses keys, shows the readout, copies it if asked to, and
saves the state. Whatever becomes of it, the calculations that it completed are then written to
the history.
-/

namespace PocketCalculator

/-- Why a command fails. -/
inductive Failure where
  | config (e : ConfigError)
  | script (e : UnknownKey)
  | store (e : StoreError)
  | noEntry (id : Int)
  | noHistoryPlace
  /-- A line of the user is no text. -/
  | input
  | copy (e : CopyError)
  | makeFolder (path : Path)
  | writeState (path : Path)
deriving DecidableEq, Repr

/-- The text that reports the failure of a command. -/
def Failure.message : Failure → String
  | .config _ => "Failed to load configuration"
  | .script e => e.message
  | .store e => e.message
  | .noEntry id => s!"No history entry with id {id}"
  | .noHistoryPlace => "No history location; set history.path in the config"
  | .input => "stream did not contain valid UTF-8"
  | .copy e => e.message
  | .makeFolder path => s!"Failed to create {String.ofList path}"
  | .writeState path => s!"Failed to write {String.ofList path}"

/-- A session under way: the state, and the calculations so far in order. -/
structure Progress where
  state : State
  recorded : List Entry := []
deriving DecidableEq, Repr

namespace Session

section

variable {m : Type → Type} [Monad m] (host : Host m)

/-! ### Pressing keys -/

/-- Presses a key and notes the time of the calculation that it completes. -/
def press (s : Separators) (p : Progress) (key : Key) : m Progress :=
  match p.state.press s key with
  | (state, none) => pure { p with state }
  | (state, some c) => do
    let time ← host.now
    return ⟨state, p.recorded ++ [⟨none, c.formula, c.result, time⟩]⟩

/-- Presses keys one after the other. -/
def pressAll (s : Separators) (p : Progress) : List Key → m Progress
  | [] => pure p
  | key :: rest => do
    let p ← press host s p key
    pressAll s p rest

/-- The two lines that show a state: the formula evaluated last, and the readout. -/
def display (st : State) : Text :=
  st.evaluated ++ '\n' :: st.readout ++ ['\n']

/-! ### Line by line -/

/-- What the user is asked with. -/
def prompt : Text := "> ".toList

/-- Whether a line ends the session. -/
def isFarewell (line : Text) : Bool :=
  ["q".toList, "quit".toList, "exit".toList].contains line

/-- Presses the keys of a line; answers also whether the session goes on. -/
def pressLine (s : Separators) (acc : Progress × Option Failure) (line : Option Text) :
    m ((Progress × Option Failure) × Bool) :=
  match line.map trim with
  | none => pure ((acc.1, some .input), false)
  | some line =>
    if isFarewell line then pure (acc, false)
    else do
      let p ← match Script.read line with
        | .ok keys => do
          let p ← pressAll host s acc.1 keys
          host.print (display p.state)
          pure p
        | .error e => do
          host.complain e.message.toList
          pure acc.1
      host.print prompt
      return ((p, none), true)

/-- Presses the keys of all lines of the user. -/
def pressLines (s : Separators) (p : Progress) : m (Progress × Option Failure) := do
  host.print (display p.state ++ prompt)
  let (p, failure?) ← host.foldLines (pressLine host s) (p, none)
  if failure?.isNone then host.print ['\n']
  return (p, failure?)

/-! ### The saved state -/

/-- The saved state. Without one the session is new, and after one that is damaged it starts with
an empty formula. -/
def restore (path : Path) : m State := do
  match ← host.readFile path with
  | .error .missing => return .initial
  | .error .refused =>
    host.warn "Failed to read session state".toList
    return .initial
  | .ok bytes =>
    match textOfBytes? bytes with
    | none =>
      host.warn "Failed to read session state".toList
      return .initial
    | some t =>
      match State.restore t with
      | .ok st => return st
      | .error _ =>
        host.warn "Discarding corrupt session state".toList
        return State.initial.reset

/-- Saves a state; answers what went wrong. -/
def save (st : State) (path : Path) : m (Option Failure) := do
  match path.parent? with
  | none => writeState
  | some folder =>
    if ← host.makeFolders folder then writeState else return some (.makeFolder folder)
where
  /-- Writes the state, whose folder exists. -/
  writeState : m (Option Failure) := do
    if ← host.writeFile path (bytesOfText st.save) then return none
    else return some (.writeState path)

/-! ### The history -/

/-- Tries to store an entry. -/
def attempt (store : Store m) (e : Entry) : m Outcome := do
  match ← store.insert e with
  | .ok _ => return .stored
  | .error _ => return .failed

/-- Notes a failed attempt, and waits a little longer before each further one. -/
def note (w : Writer) : Outcome → m Unit
  | .failed =>
    if w.failures < w.retries then do
      host.warn "Failed to write history entry, retrying".toList
      host.wait (10 * (w.failures + 1))
    else host.warn "Giving up on history entry".toList
  | _ => pure ()

/-- Writes entries to a history file. -/
def writeHistory (path : Path) (retries : Nat) (entries : List Entry) : m Unit := do
  let w := (({ retries } : Writer).sendAll (entries.map .record)).send .stop
  let _ ← w.drain (attempt (Store.file host path)) (note host)

/-! ### Whole sessions -/

/-- What a session does between restoring and showing the state. -/
inductive Drive where
  | keys (ks : List Key)
  | lines

/-- Presses the keys of a session. -/
def drive (s : Separators) (p : Progress) : Drive → m (Progress × Option Failure)
  | .keys ks => do return (← pressAll host s p ks, none)
  | .lines => pressLines host s p

/-- Shows a state, copies its readout if asked to, and saves it. -/
def finish (s : Separators) (copy : Bool) (statePath : Option Path) (st : State) :
    m (Option Failure) := do
  host.print (display st)
  let copied ← if copy then copyReadout host s st.readout else pure (.ok ())
  match copied, statePath with
  | .error e, _ => return some (.copy e)
  | .ok (), some path => save host st path
  | .ok (), none => return none

/-- Runs a session; answers what went wrong. -/
def run (places : Places) (settings : Settings) (o : Options) (d : Drive) : m (Option Failure) := do
  let statePath := o.state <|> places.stateFile settings
  let st ← match o.fresh, statePath with
    | false, some path => restore host path
    | _, _ => pure .initial
  let (p, failure?) ← drive host settings.separators ⟨st, []⟩ d
  let failure? ← match failure? with
    | some failure => pure (some failure)
    | none => finish host settings.separators o.copy statePath p.state
  match settings.recording, places.historyFile settings with
  | true, some path => writeHistory host path settings.maxRetries p.recorded
  | _, _ => pure ()
  return failure?

end

end Session

end PocketCalculator
