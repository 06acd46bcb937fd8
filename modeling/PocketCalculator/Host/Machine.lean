import PocketCalculator.Host.Disk

/-!
# A host as a value

A host whose files, clipboard, clock and streams are values: a run of the program on it is a
function of all that the program can see.
-/

namespace PocketCalculator

/-- A clipboard, and the text that was copied last. -/
structure Clipboard where
  content : Option Text := none
  error : Option ClipboardError := none

/-- Everything that a run of the program sees and changes. -/
structure Machine where
  disk : Disk
  clipboard : Clipboard := {}
  /-- The lines that the user has not typed yet. -/
  input : List (Option Text) := []
  /-- What was shown to the user. -/
  output : Text := []
  complaints : List Text := []
  warnings : List Text := []
  clock : Int := 0

namespace Machine

/-- Feeds lines to a function until it answers false; answers the lines that are left. -/
def foldInput {σ : Type} (f : σ → Option Text → StateM Machine (σ × Bool)) :
    List (Option Text) → σ → StateM Machine (σ × List (Option Text))
  | [], acc => pure (acc, [])
  | line :: rest, acc => do
    let (acc, more) ← f acc line
    if more then foldInput f rest acc else pure (acc, rest)

/-- The machine as a host. -/
def host : Host (StateM Machine) where
  readFile p := do return (← get).disk.read p
  writeFile p content := do
    let machine ← get
    match machine.disk.write p content with
    | some disk => set { machine with disk }; return true
    | none => return false
  makeFolders p := do
    let machine ← get
    match machine.disk.makeFolders p with
    | some disk => set { machine with disk }; return true
    | none => return false
  removeFile p := do
    let machine ← get
    match machine.disk.remove p with
    | .ok disk => set { machine with disk }; return .ok ()
    | .error e => return .error e
  print t := modify fun machine => { machine with output := machine.output ++ t }
  complain t := modify fun machine => { machine with complaints := machine.complaints ++ [t] }
  warn t := modify fun machine => { machine with warnings := machine.warnings ++ [t] }
  foldLines f acc := do
    let (acc, rest) ← foldInput f (← get).input acc
    modify fun machine => { machine with input := rest }
    return acc
  copy t := do
    let machine ← get
    match machine.clipboard.error with
    | some e => return .error e
    | none =>
      set { machine with clipboard := { machine.clipboard with content := some t } }
      return .ok ()
  now := do return (← get).clock
  wait _ := pure ()

end Machine

end PocketCalculator
