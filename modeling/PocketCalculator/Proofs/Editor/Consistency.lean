import PocketCalculator.Editor.Snapshot
import PocketCalculator.Proofs.Editor.Grouped
import PocketCalculator.Proofs.Number.Parentheses

/-!
# The count of open parentheses

The editor counts the open parentheses while it changes the formula: an opening parenthesis adds
one, a closing one takes one away, a deletion counts again, an error starts at zero. In every state
the count is that of the formula, and the mark of an error stands with the error marker. Both hold
at the start and after every key; the second is what makes the first hold, because a closing
parenthesis must not be added to the error marker.
-/

namespace PocketCalculator

namespace State

variable {s : Separators} {st : State} {t : Text}

/-- Whether the recorded count is that of the formula. -/
def Counted (st : State) : Prop := st.openCount = unmatched st.formula

/-- Whether the recorded count is that of the formula, and an error shows the error marker. -/
structure Consistent (st : State) : Prop where
  counted : st.Counted
  formula_of_error : st.mark = .afterError → st.formula = errorMarker

theorem consistent_initial : Consistent initial := ⟨rfl, by simp [initial]⟩

/-- Without the mark of an error only the count matters. -/
theorem Counted.consistent (h : st.Counted) (hmark : st.mark ≠ .afterError) : st.Consistent :=
  ⟨h, fun hm => absurd hm hmark⟩

/-- Most keys leave no mark, and show the formula. -/
theorem Counted.idle (h : st.Counted) : (st.marked .idle).shown.Consistent :=
  Counted.consistent h (nomatch ·)

/-- The error marker has no open parentheses. -/
theorem Consistent.openCount_of_error (h : st.Consistent) (hmark : st.mark = .afterError) :
    st.openCount = 0 := by
  rw [h.counted, h.formula_of_error hmark]
  rfl

/-! ### The parts of a key -/

theorem isParen_glyph (op : Operator) : isParen op.glyph = false := by
  cases op <;> decide

theorem isParen_of_isGlyph {c : Char} (hc : Operator.isGlyph c) : isParen c = false := by
  obtain ⟨op, rfl⟩ := Operator.isGlyph_iff.1 hc
  exact isParen_glyph op

theorem Counted.append (h : st.Counted) (ht : ∀ c ∈ t, isParen c = false) :
    (st.append t).Counted :=
  h.trans (unmatched_append _ ht).symm

theorem Counted.regroup (h : st.Counted) (hs : s.SparesParens) : (st.regroup s).Counted :=
  h.trans (Separators.unmatched_regroup hs _).symm

theorem Counted.shown (h : st.Counted) : st.shown.Counted := h

theorem Counted.multiplyAfter (h : st.Counted) (p : Char → Bool) :
    (st.multiplyAfter p).Counted := by
  unfold State.multiplyAfter
  split
  · exact h.append (by simpa using isParen_glyph .times)
  · exact h

theorem Counted.withoutZero (h : st.Counted) : st.withoutZero.Counted := by
  unfold State.withoutZero
  split
  · rename_i hzero
    rw [Counted, hzero] at h
    exact h
  · exact h

/-- Another text without open parentheses may take the place of the error marker. -/
theorem Consistent.withoutError (h : st.Consistent) (ht : unmatched t = 0) :
    (st.withoutError t).Counted := by
  unfold State.withoutError
  split
  · rename_i herror
    have hmark : st.mark = .afterError := by simpa [isError] using herror
    exact (h.openCount_of_error hmark).trans ht.symm
  · exact h.counted

theorem mark_withoutError (st : State) (t : Text) : (st.withoutError t).mark ≠ .afterError := by
  unfold State.withoutError
  split
  · exact (nomatch ·)
  · rename_i herror
    simpa [isError] using herror

/-- A digit leaves no error, also where it is not written. -/
theorem mark_pressDigit (s : Separators) (st : State) (d : Fin 10) :
    (st.pressDigit s d).mark ≠ .afterError := by
  unfold State.pressDigit
  dsimp only
  split
  · exact mark_withoutError st []
  · exact (nomatch ·)

theorem mark_pressPoint (s : Separators) (st : State) : (st.pressPoint s).mark ≠ .afterError := by
  unfold State.pressPoint
  dsimp only
  split
  · exact mark_withoutError st []
  · exact (nomatch ·)

theorem unmatched_operatorPlace (hs : s.SparesParens) (t : Text) :
    unmatched (operatorPlace s t) = unmatched t := by
  refine operatorPlace_induction (motive := fun u => unmatched u = unmatched t) rfl ?_
  intro u c hc hu
  have hparen : isParen c = false := by
    rcases hc with hc | rfl
    · exact isParen_of_isGlyph hc
    · exact hs.1
  rwa [unmatched_append_singleton, openAfter_of_not_isParen hparen] at hu

/-! ### One key -/

theorem isParen_digitChar : ∀ d : Fin 10, isParen (Nat.digitChar d) = false := by decide

theorem Consistent.pressDigit (h : st.Consistent) (hs : s.SparesParens) (d : Fin 10) :
    (st.pressDigit s d).Consistent := by
  have hclear := h.withoutError (t := []) rfl
  unfold State.pressDigit
  dsimp only
  split
  · exact hclear.consistent (mark_withoutError st [])
  · have hdigit : ∀ c ∈ [Nat.digitChar d], isParen c = false := by simpa using isParen_digitChar d
    have hcount := ((hclear.withoutZero.multiplyAfter endsGroup).append hdigit).regroup hs
    exact hcount.idle

theorem Consistent.pressPoint (h : st.Consistent) (hs : s.SparesParens) :
    (st.pressPoint s).Consistent := by
  have hclear := h.withoutError (t := []) rfl
  have hpoint : ∀ c ∈ [s.decimal], isParen c = false := by simpa using hs.1
  have hzero : ∀ c ∈ ['0'], isParen c = false := by simp [isParen]
  have htimes : ∀ c ∈ [Operator.times.glyph, '0'], isParen c = false :=
    List.forall_mem_cons.2 ⟨isParen_glyph .times, hzero⟩
  have hend : ∀ {st' : State}, st'.Counted →
      ((st'.append [s.decimal]).marked .idle).shown.Consistent := fun h' =>
    (h'.append hpoint).idle
  unfold State.pressPoint
  dsimp only
  split
  · exact hclear.consistent (mark_withoutError st [])
  · split
    · split
      · exact hend hclear
      · split
        · exact hend (hclear.append htimes)
        · exact hend (hclear.append hzero)
    · exact hend (hclear.append hzero)

theorem Consistent.pressOpen (h : st.Consistent) : st.pressOpen.Consistent := by
  have hcount := ((h.withoutError (t := []) rfl).withoutZero.multiplyAfter
    fun c => c.isDigit || endsGroup c)
  refine Counted.consistent ?_ (nomatch ·)
  exact (congrArg (· + 1) hcount).trans (unmatched_append_singleton _ '(').symm

/-- A closing parenthesis is not taken for the error marker, where none is open. -/
theorem Consistent.pressClose (h : st.Consistent) : st.pressClose.Consistent := by
  unfold State.pressClose
  split
  · exact h
  · refine Counted.consistent ?_ (nomatch ·)
    exact (congrArg (· - 1) h.counted).trans (unmatched_append_singleton _ ')').symm

theorem Consistent.pressOperator (h : st.Consistent) (hs : s.SparesParens) (op : Operator) :
    (st.pressOperator s op).Consistent := by
  have hclear := h.withoutError (t := ['0']) rfl
  refine Counted.consistent ?_ (nomatch ·)
  have hplace := hclear.trans (unmatched_operatorPlace hs _).symm
  refine hplace.trans ?_
  unfold State.pressOperator
  dsimp only [State.shown, State.marked]
  split
  · rfl
  · exact (unmatched_append _ (by simpa using isParen_glyph op)).symm

theorem Consistent.pressNegate (h : st.Consistent) : st.pressNegate.Consistent := by
  unfold State.pressNegate
  split
  · rename_i hzero
    have hcount := h.counted
    rw [Counted, hzero] at hcount
    exact Counted.consistent hcount (nomatch ·)
  · exact h

theorem Consistent.pressEquals (h : st.Consistent) (hs : s.SparesParens) :
    (st.pressEquals s).1.Consistent := by
  unfold State.pressEquals
  dsimp only
  split
  · exact h
  · split
    · exact ⟨rfl, fun _ => rfl⟩
    · split
      · exact Counted.consistent (Separators.unmatched_readout hs _).symm (nomatch ·)
      · exact ⟨rfl, fun _ => rfl⟩

theorem consistent_reset (st : State) : st.reset.Consistent := ⟨rfl, (nomatch ·)⟩

theorem consistent_pressBackspace (hs : s.SparesParens) (st : State) :
    (st.pressBackspace s).Consistent := by
  unfold State.pressBackspace
  split
  · exact consistent_reset st
  · rename_i herror
    have hmark : st.mark ≠ .afterError := by simpa [isError] using herror
    dsimp only
    split
    · have hcount : Counted { st with formula := ['0'], openCount := 0, mark := .cleared } := rfl
      exact (hcount.regroup hs).shown.consistent (nomatch ·)
    · have hcount : Counted { st with
        formula := st.formula.dropLast, openCount := unmatched st.formula.dropLast } := rfl
      exact (hcount.regroup hs).shown.consistent hmark

theorem consistent_load (hs : s.SparesParens) (number : Text) (st : State) :
    (st.load s number).Consistent := by
  have hcount : Counted { st.reset with
    formula := dropStray (trim number), openCount := unmatched (dropStray (trim number)) } := rfl
  exact (hcount.regroup hs).shown.consistent (nomatch ·)

/-- Every key leaves a consistent state consistent. -/
theorem Consistent.press (h : st.Consistent) (hs : s.SparesParens) (key : Key) :
    (st.press s key).1.Consistent := by
  cases key with
  | digit d => exact h.pressDigit hs d
  | point => exact h.pressPoint hs
  | «open» => exact h.pressOpen
  | close => exact h.pressClose
  | operator op => exact h.pressOperator hs op
  | negate => exact h.pressNegate
  | equals => exact h.pressEquals hs
  | backspace => exact consistent_pressBackspace hs st
  | reset => exact consistent_reset st
  | load number => exact consistent_load hs number st

/-! ### Runs -/

theorem Consistent.pressAll (h : st.Consistent) (hs : s.SparesParens) (keys : List Key) :
    (st.pressAll s keys).1.Consistent := by
  induction keys generalizing st with
  | nil => exact h
  | cons key keys ih => exact ih (h.press hs key)

/-- What is read back from a snapshot is consistent. -/
theorem consistent_of_restore (h : restore t = .ok st) : st.Consistent := by
  unfold restore at h
  split at h
  · cases h
  · rename_i shot _
    unfold Snapshot.toState at h
    split at h
    · cases h
    · split at h
      · cases h
      · rename_i hmark
        split at h
        · cases h
        · rename_i hcount
          cases h
          constructor
          · exact (not_not.1 hcount).symm
          · intro hm
            by_contra hne
            exact hmark ⟨hm, hne⟩

/-- In a new session or a restored one, after any keys, the recorded count is that of the formula,
so it is at most the length of the formula; an error shows the error marker with nothing open; and
a closing parenthesis either changes nothing or takes one from a count that is not zero. -/
theorem openCount_pressAll (hs : s.SparesParens) {start : State}
    (hstart : start = initial ∨ ∃ t, restore t = .ok start) (keys : List Key) :
    let st := (start.pressAll s keys).1
    st.openCount = unmatched st.formula ∧ st.openCount ≤ st.formula.length ∧
      (st.mark = .afterError → st.formula = errorMarker ∧ st.openCount = 0) ∧
        (st.openCount = 0 ∧ (st.press s .close).1 = st ∨
          (st.press s .close).1.openCount + 1 = st.openCount) := by
  have hconsistent : start.Consistent := by
    rcases hstart with rfl | ⟨t, ht⟩
    · exact consistent_initial
    · exact consistent_of_restore ht
  intro st
  have h : st.Consistent := hconsistent.pressAll hs keys
  refine ⟨h.counted, h.counted.trans_le (unmatched_le_length _), fun hmark =>
    ⟨h.formula_of_error hmark, h.openCount_of_error hmark⟩, ?_⟩
  by_cases hzero : st.openCount = 0
  · exact Or.inl ⟨hzero, if_pos hzero⟩
  · have hclose : (st.press s .close).1.openCount = st.openCount - 1 := by
      simp [press, pressClose, hzero, State.shown, State.marked]
    right
    omega

/-- A run in which the count goes up, down and to zero at an error. -/
theorem openCount_pressAll_default :
    let keys : List Key := [.open, .open, .close, .close, .close, .operator .divide, .equals]
    let st := (initial.pressAll {} keys).1
    st.openCount = unmatched st.formula ∧ st.openCount ≤ st.formula.length ∧
      (st.mark = .afterError → st.formula = errorMarker ∧ st.openCount = 0) ∧
        (st.openCount = 0 ∧ (st.press {} .close).1 = st ∨
          (st.press {} .close).1.openCount + 1 = st.openCount) :=
  openCount_pressAll ⟨by decide, by decide⟩ (Or.inl rfl) _

end State

end PocketCalculator
