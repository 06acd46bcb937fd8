import PocketCalculator.Text.Basic

/-!
# What can be wrong with an expression

Each cause carries what its message shows. Positions count the UTF-8 bytes before the place.
-/

namespace PocketCalculator

/-- Why an expression has no value. -/
inductive EvalError where
  /-- A character that no expression has at this place, or the end of the text. -/
  | unexpected (position : Nat) (found : Option Char)
  /-- A name that is no function. -/
  | unknownFunction (name : Text)
  /-- More factors inside one another than the limit. -/
  | nestedTooDeep (position limit : Nat)
  /-- A number outside the range of finite doubles. -/
  | overflow
deriving DecidableEq, Repr

/-- The text that reports an error. -/
def EvalError.message : EvalError → String
  | .unexpected position (some c) => s!"unexpected '{c}' at position {position}"
  | .unexpected position none => s!"unexpected end of input at position {position}"
  | .unknownFunction name => s!"unknown function: {String.ofList name}"
  | .nestedTooDeep position limit =>
    s!"expression nested deeper than {limit} levels at position {position}"
  | .overflow => "numeric overflow"

end PocketCalculator
