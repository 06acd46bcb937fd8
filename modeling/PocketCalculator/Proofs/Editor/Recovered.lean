import PocketCalculator.Proofs.Editor.Consistency

/-!
# The error marker stands for an empty formula

No key reads the formula that was evaluated last, so two states that differ in nothing else go on
alike: they stay so after every key, and complete the same calculations. The first key behind an
error removes the marker and shows the formula, and with it everything is gone that a reset would
have removed (`pressAll_of_error`).
-/

namespace PocketCalculator

/-- Whether a key can start an operand. -/
def Key.startsOperand : Key → Bool
  | .digit _ | .point | .open => true
  | .close | .operator _ | .negate | .equals | .backspace | .reset | .load _ => false

namespace State

variable {s : Separators} {st st' : State} {key : Key}

/-! ### States that go on alike -/

/-- Whether two states differ at most in the formula that was evaluated last. -/
structure Alike (st st' : State) : Prop where
  formula : st.formula = st'.formula
  readout : st.readout = st'.readout
  openCount : st.openCount = st'.openCount
  mark : st.mark = st'.mark

namespace Alike

theorem refl (st : State) : Alike st st := ⟨rfl, rfl, rfl, rfl⟩

theorem isError_eq (h : Alike st st') : st.isError = st'.isError := by
  rw [isError, isError, h.mark]

theorem closed_eq (h : Alike st st') : st.closed = st'.closed := by
  rw [closed, closed, h.formula, h.openCount]

theorem shown (h : Alike st st') : Alike st.shown st'.shown :=
  ⟨h.formula, h.formula, h.openCount, h.mark⟩

theorem append (h : Alike st st') (t : Text) : Alike (st.append t) (st'.append t) :=
  ⟨congrArg (· ++ t) h.formula, h.readout, h.openCount, h.mark⟩

theorem regroup (h : Alike st st') (s : Separators) : Alike (st.regroup s) (st'.regroup s) :=
  ⟨congrArg s.regroup h.formula, h.readout, h.openCount, h.mark⟩

theorem marked (h : Alike st st') (m : Mark) : Alike (st.marked m) (st'.marked m) :=
  ⟨h.formula, h.readout, h.openCount, rfl⟩

theorem withoutError (h : Alike st st') (t : Text) :
    Alike (st.withoutError t) (st'.withoutError t) := by
  unfold State.withoutError
  rw [h.isError_eq]
  split
  · exact ⟨rfl, h.readout, h.openCount, rfl⟩
  · exact h

theorem withoutZero (h : Alike st st') : Alike st.withoutZero st'.withoutZero := by
  unfold State.withoutZero
  rw [h.formula]
  split
  · exact ⟨rfl, h.readout, h.openCount, h.mark⟩
  · exact h

theorem multiplyAfter (h : Alike st st') (p : Char → Bool) :
    Alike (st.multiplyAfter p) (st'.multiplyAfter p) := by
  unfold State.multiplyAfter
  rw [h.formula]
  split
  · exact h.append _
  · exact h

/-! ### Every key -/

theorem pressDigit (h : Alike st st') (s : Separators) (d : Fin 10) :
    Alike (st.pressDigit s d) (st'.pressDigit s d) := by
  have hclear := h.withoutError []
  unfold State.pressDigit
  dsimp only
  rw [hclear.formula]
  split
  · exact hclear
  · have hbefore := hclear.withoutZero.multiplyAfter endsGroup
    exact (((hbefore.append [Nat.digitChar d]).regroup s).marked .idle).shown

theorem pressPoint (h : Alike st st') (s : Separators) :
    Alike (st.pressPoint s) (st'.pressPoint s) := by
  have hclear := h.withoutError []
  unfold State.pressPoint
  dsimp only
  rw [hclear.formula]
  split
  · exact hclear
  · refine ((Alike.append ?_ [s.decimal]).marked .idle).shown
    split
    · split
      · exact hclear
      · split
        · exact hclear.append _
        · exact hclear.append _
    · exact hclear.append _

theorem pressOpen (h : Alike st st') : Alike st.pressOpen st'.pressOpen := by
  have hbefore := ((h.withoutError []).withoutZero.multiplyAfter
    fun c => c.isDigit || endsGroup c).append ['(']
  exact ⟨hbefore.formula, hbefore.formula, congrArg (· + 1) hbefore.openCount, rfl⟩

theorem pressClose (h : Alike st st') : Alike st.pressClose st'.pressClose := by
  have hformula := (h.append [')']).formula
  unfold State.pressClose
  rw [h.openCount]
  split
  · exact h
  · exact ⟨hformula, hformula, rfl, rfl⟩

theorem pressOperator (h : Alike st st') (s : Separators) (op : Operator) :
    Alike (st.pressOperator s op) (st'.pressOperator s op) := by
  have hclear := h.withoutError ['0']
  unfold State.pressOperator
  dsimp only
  rw [hclear.formula]
  exact ⟨rfl, rfl, hclear.openCount, rfl⟩

theorem pressNegate (h : Alike st st') : Alike st.pressNegate st'.pressNegate := by
  unfold State.pressNegate
  rw [h.formula]
  split
  · exact ⟨rfl, rfl, h.openCount, rfl⟩
  · exact h

theorem pressEquals (h : Alike st st') (s : Separators) :
    Alike (st.pressEquals s).1 (st'.pressEquals s).1 ∧
      (st.pressEquals s).2 = (st'.pressEquals s).2 := by
  unfold State.pressEquals
  rw [h.formula, h.isError_eq, h.closed_eq]
  dsimp only
  split
  · exact ⟨h, rfl⟩
  · split
    · exact ⟨⟨rfl, rfl, rfl, rfl⟩, rfl⟩
    · split
      · exact ⟨refl _, rfl⟩
      · exact ⟨⟨rfl, rfl, rfl, rfl⟩, rfl⟩

theorem pressBackspace (h : Alike st st') (s : Separators) :
    Alike (st.pressBackspace s) (st'.pressBackspace s) := by
  unfold State.pressBackspace
  rw [h.isError_eq, h.formula]
  split
  · exact refl _
  · dsimp only
    split
    · exact ⟨rfl, rfl, rfl, rfl⟩
    · exact ⟨rfl, rfl, rfl, h.mark⟩

/-- No key reads the formula that was evaluated last. -/
theorem press (h : Alike st st') (s : Separators) (key : Key) :
    Alike (st.press s key).1 (st'.press s key).1 ∧ (st.press s key).2 = (st'.press s key).2 := by
  cases key with
  | digit d => exact ⟨h.pressDigit s d, rfl⟩
  | point => exact ⟨h.pressPoint s, rfl⟩
  | «open» => exact ⟨h.pressOpen, rfl⟩
  | close => exact ⟨h.pressClose, rfl⟩
  | operator op => exact ⟨h.pressOperator s op, rfl⟩
  | negate => exact ⟨h.pressNegate, rfl⟩
  | equals => exact h.pressEquals s
  | backspace => exact ⟨h.pressBackspace s, rfl⟩
  | reset => exact ⟨refl _, rfl⟩
  | load number => exact ⟨refl _, rfl⟩

theorem pressAll (h : Alike st st') (s : Separators) (keys : List Key) :
    Alike (st.pressAll s keys).1 (st'.pressAll s keys).1 ∧
      (st.pressAll s keys).2 = (st'.pressAll s keys).2 := by
  induction keys generalizing st st' with
  | nil => exact ⟨h, rfl⟩
  | cons key keys ih =>
    obtain ⟨hstep, hcalculation⟩ := h.press s key
    obtain ⟨hrest, hcalculations⟩ := ih hstep
    exact ⟨hrest, congrArg₂ (fun step rest => step.toList ++ rest) hcalculation hcalculations⟩

end Alike

/-! ### Errors -/

/-- Whether nothing is open in an error. -/
def ClosedInError (st : State) : Prop := st.mark = .afterError → st.openCount = 0

theorem Consistent.closedInError (h : st.Consistent) : st.ClosedInError := h.openCount_of_error

theorem closedInError_of_ne (h : st.mark ≠ .afterError) : st.ClosedInError := fun hmark =>
  absurd hmark h

/-- This holds after every key, whatever the separators are. -/
theorem ClosedInError.press (h : st.ClosedInError) (s : Separators) (key : Key) :
    (st.press s key).1.ClosedInError := by
  have hidle : Mark.idle ≠ .afterError := by decide
  have hoperator : Mark.afterOperator ≠ .afterError := by decide
  have hevaluation : Mark.afterEvaluation ≠ .afterError := by decide
  have hcleared : Mark.cleared ≠ .afterError := by decide
  cases key with
  | digit d => exact closedInError_of_ne (mark_pressDigit s st d)
  | point => exact closedInError_of_ne (mark_pressPoint s st)
  | «open» => exact closedInError_of_ne hidle
  | operator op => exact closedInError_of_ne hoperator
  | close =>
    simp only [State.press, pressClose]
    split
    · exact h
    · exact closedInError_of_ne hidle
  | negate =>
    simp only [State.press, pressNegate]
    split
    · exact closedInError_of_ne hidle
    · exact h
  | equals =>
    simp only [State.press, pressEquals]
    split
    · exact h
    · split
      · exact fun _ => rfl
      · split
        · exact closedInError_of_ne hevaluation
        · exact fun _ => rfl
  | backspace =>
    simp only [State.press, pressBackspace]
    split
    · exact fun _ => rfl
    · rename_i herror
      have hmark : st.mark ≠ .afterError := by simpa [isError] using herror
      split
      · exact closedInError_of_ne hcleared
      · exact closedInError_of_ne hmark
  | reset => exact fun _ => rfl
  | load number => exact closedInError_of_ne hidle

theorem ClosedInError.pressAll (h : st.ClosedInError) (s : Separators) (keys : List Key) :
    (st.pressAll s keys).1.ClosedInError := by
  induction keys generalizing st with
  | nil => exact h
  | cons key keys ih => exact ih (h.press s key)

/-! ### The first key behind an error -/

/-- Without its marker an error has the formula, the count and the mark of another text. -/
theorem withoutError_of_error (hmark : st.mark = .afterError) (hcount : st.openCount = 0)
    (t : Text) : st.withoutError t = ⟨t, st.readout, st.evaluated, 0, .idle⟩ := by
  rw [withoutError, isError, decide_eq_true hmark, if_pos rfl, hcount]

/-- An operand starts as it does after a reset. -/
theorem alike_press_reset (hmark : st.mark = .afterError) (hcount : st.openCount = 0)
    (hkey : key.startsOperand) :
    Alike (st.press s key).1 (st.reset.press s key).1 ∧
      (st.press s key).2 = (st.reset.press s key).2 := by
  have hclear := withoutError_of_error hmark hcount []
  have hreset : st.reset.withoutError [] = ⟨[], ['0'], [], 0, .idle⟩ := rfl
  cases key with
  | digit d =>
    refine ⟨?_, rfl⟩
    simp only [press, pressDigit, hclear, hreset]
    exact ⟨rfl, rfl, rfl, rfl⟩
  | point =>
    refine ⟨?_, rfl⟩
    simp only [press, pressPoint, hclear, hreset]
    exact ⟨rfl, rfl, rfl, rfl⟩
  | «open» =>
    refine ⟨?_, rfl⟩
    simp only [press, pressOpen, hclear, hreset]
    exact ⟨rfl, rfl, rfl, rfl⟩
  | _ => cases hkey

/-- An operator follows a zero, as it does in a new session. -/
theorem alike_press_initial (hmark : st.mark = .afterError) (hcount : st.openCount = 0)
    (op : Operator) :
    Alike (st.press s (.operator op)).1 (initial.press s (.operator op)).1 := by
  have hclear := withoutError_of_error hmark hcount ['0']
  simp only [press, pressOperator, hclear]
  exact ⟨rfl, rfl, rfl, rfl⟩

/-- In an error of a session with any separators, new or restored, any keys that start with an
operand lead after each of them to the same formula, readout, count and mark as after a reset, and
complete the same calculations. If they start with an operator, they do what they do in a new
session, which shows a zero. -/
theorem pressAll_of_error (s : Separators) {start : State}
    (hstart : start = initial ∨ ∃ t, restore t = .ok start) (keys : List Key)
    (hmark : (start.pressAll s keys).1.mark = .afterError) (more : List Key) :
    let st := (start.pressAll s keys).1
    (∀ key : Key, key.startsOperand →
      let run := st.pressAll s (key :: more)
      let fresh := st.reset.pressAll s (key :: more)
      Alike run.1 fresh.1 ∧ run.2 = fresh.2) ∧
    ∀ op : Operator,
      let run := st.pressAll s (.operator op :: more)
      let fresh := initial.pressAll s (.operator op :: more)
      Alike run.1 fresh.1 ∧ run.2 = fresh.2 := by
  intro st
  have hclosed : start.ClosedInError := by
    rcases hstart with rfl | ⟨t, ht⟩
    · exact consistent_initial.closedInError
    · exact (consistent_of_restore ht).closedInError
  have hcount : st.openCount = 0 := hclosed.pressAll s keys hmark
  constructor
  · intro key hkey run fresh
    obtain ⟨hstep, hcalculation⟩ := alike_press_reset (s := s) hmark hcount hkey
    obtain ⟨hrest, hcalculations⟩ := hstep.pressAll s more
    exact ⟨hrest, congrArg₂ (fun step rest => step.toList ++ rest) hcalculation hcalculations⟩
  · intro op run fresh
    exact (alike_press_initial hmark hcount op).pressAll s more

/-- A number with a parenthesis and an operator after an error, and the second error behind them. -/
theorem pressAll_of_error_twice :
    let s : Separators := ⟨',', '.'⟩
    let st := (initial.pressAll s [.digit 7, .equals, .open, .close, .equals]).1
    let more : List Key := [.digit 2, .open, .operator .minus, .equals, .close, .equals]
    st.mark = .afterError ∧ st.evaluated = ['7'] ∧
      (st.pressAll s (.point :: more.take 3)).1.formula = "0,2×(-".toList ∧
      Alike (st.pressAll s (.point :: more)).1 (st.reset.pressAll s (.point :: more)).1 ∧
      (st.pressAll s (.operator .plus :: more)).2 =
        (initial.pressAll s (.operator .plus :: more)).2 := by
  intro s st more
  have hmark : st.mark = .afterError := by decide +kernel
  obtain ⟨hoperand, hoperator⟩ := pressAll_of_error s (Or.inl rfl) _ hmark more
  exact ⟨hmark, by decide +kernel, by decide +kernel, (hoperand .point rfl).1,
    (hoperator .plus).2⟩

end State

end PocketCalculator
