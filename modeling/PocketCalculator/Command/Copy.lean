import PocketCalculator.Host.Basic
import PocketCalculator.Number.Plain
import PocketCalculator.Text.Blank

/-!
# Copying the readout

What is copied is the readout without the blanks around it and without grouping. Nothing is copied
if nothing is left, or if the readout is the error marker.
-/

namespace PocketCalculator

/-- Why a readout is not copied. -/
inductive CopyError where
  | nothing (readout : Text)
  | clipboard (e : ClipboardError)
deriving DecidableEq, Repr

/-- The text that reports why a readout is not copied. -/
def CopyError.message : CopyError → String
  | .nothing readout => s!"Nothing to copy for '{String.ofList readout}'"
  | .clipboard .closed => "Failed to access clipboard"
  | .clipboard .refused => "Failed to copy to clipboard"

/-- The text to be copied for a readout, if there is one. -/
def clipboardText? (s : Separators) (readout : Text) : Option Text :=
  let trimmed := trim readout
  if trimmed = [] ∨ trimmed = errorMarker then none else some (s.ungroup trimmed)

/-- Copies a readout to the clipboard. -/
def copyReadout {m : Type → Type} [Monad m] (host : Host m) (s : Separators) (readout : Text) :
    m (Except CopyError Unit) :=
  match clipboardText? s readout with
  | none => pure (.error (.nothing readout))
  | some t => do
    match ← host.copy t with
    | .error e => return .error (.clipboard e)
    | .ok () => return .ok ()

end PocketCalculator
