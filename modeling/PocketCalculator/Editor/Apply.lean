import PocketCalculator.Editor.Press

/-!
# Keys that answer what is shown

An editor has a state, the separators of its numbers and the calculations that it has recorded. A
key is applied to it step by step, and answers what is shown when it is done. Most keys show the
formula in the readout before they answer. A key that is not taken answers at once, and the equals
key and a reset set the readout themselves.
-/

namespace PocketCalculator

/-- What is shown of an editor. -/
structure Display where
  /-- The small line above the readout: the formula that was evaluated last. -/
  formula : Text
  /-- The readout. -/
  result : Text
deriving DecidableEq, Repr

/-- A state with the separators that its keys use and the calculations that they recorded. -/
structure Editor where
  separators : Separators
  state : State := .initial
  recorded : List Calculation := []
deriving DecidableEq, Repr

namespace Editor

/-! ### Steps of a key -/

/-- Changes the state. -/
def change (f : State → State) : StateM Editor Unit :=
  modify fun e => { e with state := f e.state }

/-- Answers what is shown of the state as it is. -/
def answer : StateM Editor Display := do
  let st := (← get).state
  return ⟨st.evaluated, st.readout⟩

/-- Shows the formula in the readout and answers. -/
def answerFormula : StateM Editor Display := do
  change (·.shown)
  answer

/-- Records a calculation and shows its result. -/
def complete (c : Calculation) : StateM Editor Unit := do
  modify fun e => { e with recorded := e.recorded ++ [c] }
  change fun st =>
    { st with
      evaluated := c.formula, formula := c.result, readout := c.result, mark := .afterEvaluation }

/-- Shows the error marker. -/
def fail : StateM Editor Unit :=
  change fun st =>
    { st with formula := errorMarker, readout := errorMarker, mark := .afterError }

/-! ### Keys -/

/-- A further zero is not taken behind a lone zero. -/
def applyDigit (d : Fin 10) : StateM Editor Display := do
  change (·.withoutError [])
  let e ← get
  if e.state.formula = ['0'] ∧ d.val = 0 then answer
  else
    change (·.withoutZero)
    change (·.multiplyAfter State.endsGroup)
    change (·.append [Nat.digitChar d])
    change (·.regroup e.separators)
    change (·.marked .idle)
    answerFormula

/-- A further decimal separator is not taken in the same number. -/
def applyPoint : StateM Editor Display := do
  change (·.withoutError [])
  let e ← get
  if (State.lastNumber e.state.formula).contains e.separators.decimal then answer
  else
    match e.state.formula.getLast? with
    | some c =>
      if c.isDigit then pure ()
      else if State.endsGroup c then change (·.append [Operator.times.glyph, '0'])
      else change (·.append ['0'])
    | none => change (·.append ['0'])
    change (·.append [e.separators.decimal])
    change (·.marked .idle)
    answerFormula

def applyOpen : StateM Editor Display := do
  change (·.withoutError [])
  change (·.withoutZero)
  change (·.multiplyAfter fun c => c.isDigit || State.endsGroup c)
  change (·.append ['('])
  change fun st => { st with openCount := st.openCount + 1 }
  change (·.marked .idle)
  answerFormula

/-- Without an open parenthesis none is closed. -/
def applyClose : StateM Editor Display := do
  if (← get).state.openCount = 0 then answer
  else
    change (·.append [')'])
    change fun st => { st with openCount := st.openCount - 1 }
    change (·.marked .idle)
    answerFormula

def applyOperator (op : Operator) : StateM Editor Display := do
  change (·.withoutError ['0'])
  let e ← get
  change fun st => { st with formula := State.operatorPlace e.separators st.formula }
  let leading := (← get).state.formula.getLast?.all (· = '(')
  if leading ∧ op ≠ .minus then pure () else change (·.append [op.glyph])
  change (·.marked .afterOperator)
  answerFormula

/-- Answers also whether the formula was changed: only a lone zero is. -/
def applyNegate : StateM Editor (Bool × Display) := do
  if (← get).state.formula = ['0'] then
    change fun st => { st with formula := [Operator.minus.glyph] }
    change (·.marked .idle)
    return (true, ← answerFormula)
  else return (false, ← answer)

/-- Nothing is evaluated if the formula is empty or the error marker. -/
def applyEquals : StateM Editor Display := do
  let e ← get
  if e.state.formula.isEmpty || e.state.isError then answer
  else
    change fun st => { st with openCount := 0 }
    match evaluate (e.separators.plain e.state.closed) with
    | .ok value =>
      if value.isFinite then complete ⟨e.state.closed, e.separators.readout value⟩ else fail
    | .error _ => fail
    answer

def applyReset : StateM Editor Display := do
  change (·.reset)
  answer

/-- The error marker is taken away as a whole. -/
def applyBackspace : StateM Editor Display := do
  let e ← get
  if e.state.isError then applyReset
  else
    change fun st => { st with formula := st.formula.dropLast }
    change fun st => { st with openCount := unmatched st.formula }
    let formula := (← get).state.formula
    if formula = [] ∨ formula = ['0'] then
      change fun st => { st with formula := ['0'], openCount := 0, mark := .cleared }
    else pure ()
    change (·.regroup e.separators)
    answerFormula

def applyLoad (number : Text) : StateM Editor Display := do
  let _ ← applyReset
  change fun st => { st with formula := dropStray (trim number) }
  change fun st => { st with openCount := unmatched st.formula }
  let e ← get
  change (·.regroup e.separators)
  answerFormula

/-- Applies a key and answers what is shown then. -/
def apply : Key → StateM Editor Display
  | .digit d => applyDigit d
  | .point => applyPoint
  | .open => applyOpen
  | .close => applyClose
  | .operator op => applyOperator op
  | .negate => do return (← applyNegate).2
  | .equals => applyEquals
  | .backspace => applyBackspace
  | .reset => applyReset
  | .load number => applyLoad number

end Editor

end PocketCalculator
