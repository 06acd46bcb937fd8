import PocketCalculator.Editor.State
import PocketCalculator.Expression.Evaluate
import PocketCalculator.Keypad.Key
import PocketCalculator.Number.Plain
import PocketCalculator.Text.Blank

/-!
# What a key does

Keys build the formula: they insert the multiplications that a reader leaves out, let only the
last of several operators stand, and keep every number grouped. The equals key closes what is
open, evaluates, and answers the calculation to be recorded if there is a value.
-/

namespace PocketCalculator

/-- A successful evaluation: the formula, closed, and the readout of its value. -/
structure Calculation where
  formula : Text
  result : Text
deriving DecidableEq, Repr

namespace State

/-- Whether the formula is the error marker. -/
def isError (st : State) : Bool :=
  st.mark = .afterError

/-- Another formula in the place of the error marker. -/
def withoutError (replacement : Text) (st : State) : State :=
  if st.isError then { st with formula := replacement, mark := .idle } else st

/-- Shows the formula in the readout. -/
def shown (st : State) : State :=
  { st with readout := st.formula }

/-- Adds to the end of the formula. -/
def append (t : Text) (st : State) : State :=
  { st with formula := st.formula ++ t }

/-- Groups the numbers of the formula. -/
def regroup (s : Separators) (st : State) : State :=
  { st with formula := s.regroup st.formula }

/-- Sets the mark. -/
def marked (m : Mark) (st : State) : State :=
  { st with mark := m }

/-- An empty formula in the place of a lone zero. -/
def withoutZero (st : State) : State :=
  if st.formula = ['0'] then { st with formula := [] } else st

/-- Multiplies by what follows, if the last character is in a class; an empty formula has none. -/
def multiplyAfter (p : Char → Bool) (st : State) : State :=
  if st.formula.getLast?.any p then st.append [Operator.times.glyph] else st

/-- Whether a character ends a group or a percentage. -/
def endsGroup (c : Char) : Bool :=
  c == ')' || c == '%'

/-- A digit replaces a lone zero, and multiplies what a parenthesis or a percent sign ends. -/
def pressDigit (s : Separators) (d : Fin 10) (st : State) : State :=
  let st := st.withoutError []
  if st.formula = ['0'] ∧ d.val = 0 then st
  else
    let st := st.withoutZero.multiplyAfter endsGroup
    ((st.append [Nat.digitChar d]).regroup s).marked .idle |>.shown

/-- Whether a character ends a number that a decimal separator would belong to. -/
def endsNumber (c : Char) : Bool :=
  Operator.isGlyph c || c == '(' || c == ')' || c == '^'

/-- The text after the last character that ends a number. -/
def lastNumber (formula : Text) : Text :=
  (formula.reverse.takeWhile (!endsNumber ·)).reverse

/-- A number takes one decimal separator, and a zero before it when it has no digit yet. -/
def pressPoint (s : Separators) (st : State) : State :=
  let st := st.withoutError []
  if (lastNumber st.formula).contains s.decimal then st
  else
    let st :=
      match st.formula.getLast? with
      | some c =>
        if c.isDigit then st
        else if endsGroup c then st.append [Operator.times.glyph, '0']
        else st.append ['0']
      | none => st.append ['0']
    (st.append [s.decimal]).marked .idle |>.shown

/-- An opening parenthesis replaces a lone zero, and is multiplied with what is before it. -/
def pressOpen (st : State) : State :=
  let st := (st.withoutError []).withoutZero.multiplyAfter fun c => c.isDigit || endsGroup c
  { st.append ['('] with openCount := st.openCount + 1 }.marked .idle |>.shown

/-- A closing parenthesis needs an open one. -/
def pressClose (st : State) : State :=
  if st.openCount = 0 then st
  else { st.append [')'] with openCount := st.openCount - 1 }.marked .idle |>.shown

/-- The formula without the operators or the decimal separator at its end that a new operator
takes the place of. -/
def operatorPlace (s : Separators) (formula : Text) : Text :=
  if formula.getLast?.any fun c => Operator.isGlyph c || c == s.decimal then
    let shorter := formula.dropLast
    if shorter.getLast?.any Operator.isGlyph then shorter.dropLast else shorter
  else formula

/-- An operator replaces the one before it. Only a minus can stand at the start of a formula or
of a group. -/
def pressOperator (s : Separators) (op : Operator) (st : State) : State :=
  let st := st.withoutError ['0']
  let formula := operatorPlace s st.formula
  let leading := formula.getLast?.all (· = '(')
  let formula := if leading ∧ op ≠ .minus then formula else formula ++ [op.glyph]
  { st with formula }.marked .afterOperator |>.shown

/-- A lone zero becomes the sign of a negative number; any other formula stays. -/
def pressNegate (st : State) : State :=
  if st.formula = ['0'] then { st with formula := [Operator.minus.glyph] }.marked .idle |>.shown
  else st

/-- Starts again with an empty formula. -/
def reset (_ : State) : State :=
  ⟨[], ['0'], [], 0, .idle⟩

/-- The formula with all parentheses closed. -/
def closed (st : State) : Text :=
  st.formula ++ List.replicate st.openCount ')'

/-- Closes and evaluates the formula. A value becomes the new formula; without a finite one the
error marker does. There is nothing to do for an empty formula or the error marker. -/
def pressEquals (s : Separators) (st : State) : State × Option Calculation :=
  if st.formula.isEmpty || st.isError then (st, none)
  else
    let failed : State :=
      { st with
        formula := errorMarker, readout := errorMarker, openCount := 0, mark := .afterError }
    match evaluate (s.plain st.closed) with
    | .error _ => (failed, none)
    | .ok value =>
      if value.isFinite then
        let result := s.readout value
        (⟨result, result, st.closed, 0, .afterEvaluation⟩, some ⟨st.closed, result⟩)
      else (failed, none)

/-- Takes the last character away. Nothing and a lone zero are shown as zero. -/
def pressBackspace (s : Separators) (st : State) : State :=
  if st.isError then st.reset
  else
    let formula := st.formula.dropLast
    let st :=
      if formula = [] ∨ formula = ['0'] then
        { st with formula := ['0'], openCount := 0, mark := .cleared }
      else { st with formula, openCount := unmatched formula }
    (st.regroup s).shown

/-- Starts again with a given formula, without the closing parentheses that close nothing. -/
def load (s : Separators) (number : Text) (st : State) : State :=
  let formula := dropStray (trim number)
  ({ st.reset with formula, openCount := unmatched formula }.regroup s).shown

/-- The state after a key, and the calculation that the key completed. -/
def press (s : Separators) (st : State) : Key → State × Option Calculation
  | .digit d => (st.pressDigit s d, none)
  | .point => (st.pressPoint s, none)
  | .open => (st.pressOpen, none)
  | .close => (st.pressClose, none)
  | .operator op => (st.pressOperator s op, none)
  | .negate => (st.pressNegate, none)
  | .equals => st.pressEquals s
  | .backspace => (st.pressBackspace s, none)
  | .reset => (st.reset, none)
  | .load number => (st.load s number, none)

/-- The state after some keys, and the calculations that they completed, in order. -/
def pressAll (s : Separators) (st : State) : List Key → State × List Calculation
  | [] => (st, [])
  | key :: keys =>
    let step := st.press s key
    let rest := pressAll s step.1 keys
    (rest.1, step.2.toList ++ rest.2)

end State

end PocketCalculator
