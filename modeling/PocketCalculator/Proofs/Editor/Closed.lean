import PocketCalculator.Proofs.Editor.Consistency
import PocketCalculator.Proofs.Formula.Balance

/-!
# Closing by hand

Every closing parenthesis of a formula closes one, whatever text was loaded, so the formula is
balanced when the equals key has closed what is open. A parenthesis that is closed by hand before
the equals key is one less for that key to close, and the equals key looks at nothing else that has
changed. Hence it does not matter how many are closed by hand (`pressAll_close_equals`).
-/

namespace PocketCalculator

namespace State

variable {s : Separators} {st : State}

/-! ### Every key -/

theorem closes_concat_glyph {t : Text} (h : Closes 0 t) (op : Operator) :
    Closes 0 (t ++ [op.glyph]) :=
  h.append (by simpa using isParen_glyph op)

/-- The formula in front of a digit or a group, without an error, without a lone zero and perhaps
with a multiplication sign. -/
theorem closes_multiplied (h : Closes 0 st.formula) (p : Char → Bool) :
    Closes 0 ((st.withoutError []).withoutZero.multiplyAfter p).formula := by
  have hclear := withoutError_induction (motive := Closes 0) h closes_nil
  have hnonzero := withoutZero_induction (motive := Closes 0) hclear closes_nil
  exact multiplyAfter_induction hnonzero (closes_concat_glyph hnonzero .times) p

theorem closes_pressDigit (h : Closes 0 st.formula) (hs : s.SparesParens) (d : Fin 10) :
    Closes 0 (st.pressDigit s d).formula := by
  unfold pressDigit
  dsimp only
  split
  · exact withoutError_induction (motive := Closes 0) h closes_nil
  · have hdigit : ∀ c ∈ [Nat.digitChar d], isParen c = false := by simpa using isParen_digitChar d
    exact (Separators.closes_regroup_iff hs).2 ((closes_multiplied h endsGroup).append hdigit)

theorem closes_pressPoint (h : Closes 0 st.formula) (hs : s.SparesParens) :
    Closes 0 (st.pressPoint s).formula := by
  have hclear := withoutError_induction (motive := Closes 0) h closes_nil
  have hpoint : ∀ c ∈ [s.decimal], isParen c = false := by simpa using hs.1
  have hzero : ∀ c ∈ ['0'], isParen c = false := by simp [isParen]
  have htimes : ∀ c ∈ [Operator.times.glyph, '0'], isParen c = false :=
    List.forall_mem_cons.2 ⟨isParen_glyph .times, hzero⟩
  unfold pressPoint
  dsimp only
  split
  · exact hclear
  · split
    · split
      · exact hclear.append hpoint
      · split
        · exact (hclear.append htimes).append hpoint
        · exact (hclear.append hzero).append hpoint
    · exact (hclear.append hzero).append hpoint

theorem closes_pressOpen (h : Closes 0 st.formula) : Closes 0 st.pressOpen.formula :=
  closes_concat.2 ⟨closes_multiplied h _, by simp⟩

/-- The key is taken only if the count says that one is open, and the count is right. -/
theorem closes_pressClose (h : Closes 0 st.formula) (hst : st.Consistent) :
    Closes 0 st.pressClose.formula := by
  unfold pressClose
  split
  · exact h
  · rename_i hcount
    have hopen : 0 < unmatched st.formula := by
      rw [← hst.counted]
      omega
    exact closes_concat.2 ⟨h, fun _ => hopen⟩

theorem closes_pressOperator (h : Closes 0 st.formula) (op : Operator) :
    Closes 0 (st.pressOperator s op).formula := by
  have hzero : Closes 0 ['0'] := closes_of_not_isParen (by simp [isParen])
  have hplace : Closes 0 (operatorPlace s (st.withoutError ['0']).formula) :=
    operatorPlace_induction (withoutError_induction h hzero) fun _ _ _ hu => hu.of_append
  unfold pressOperator
  dsimp only [shown, marked]
  split
  · exact hplace
  · exact closes_concat_glyph hplace op

theorem closes_pressNegate (h : Closes 0 st.formula) : Closes 0 st.pressNegate.formula := by
  unfold pressNegate
  split
  · exact closes_concat_glyph closes_nil .minus
  · exact h

theorem closes_pressEquals (h : Closes 0 st.formula) (hs : s.SparesParens) :
    Closes 0 (st.pressEquals s).1.formula := by
  have hmarker : Closes 0 errorMarker := closes_of_not_isParen (by simp [errorMarker, isParen])
  unfold pressEquals
  dsimp only
  split
  · exact h
  · split
    · exact hmarker
    · split
      · exact Separators.closes_readout hs _
      · exact hmarker

theorem closes_pressBackspace (h : Closes 0 st.formula) (hs : s.SparesParens) :
    Closes 0 (st.pressBackspace s).formula := by
  unfold pressBackspace
  split
  · exact closes_nil
  · dsimp only
    split
    · exact (Separators.closes_regroup_iff hs).2 (closes_of_not_isParen (by simp [isParen]))
    · exact (Separators.closes_regroup_iff hs).2 h.dropLast

theorem closes_load (hs : s.SparesParens) (number : Text) (st : State) :
    Closes 0 (st.load s number).formula :=
  (Separators.closes_regroup_iff hs).2 (closes_dropStrayFrom 0 (trim number))

/-- Every key leaves a formula in which every closing parenthesis closes one. -/
theorem closes_press (h : Closes 0 st.formula) (hst : st.Consistent) (hs : s.SparesParens)
    (key : Key) : Closes 0 (st.press s key).1.formula := by
  cases key with
  | digit d => exact closes_pressDigit h hs d
  | point => exact closes_pressPoint h hs
  | «open» => exact closes_pressOpen h
  | close => exact closes_pressClose h hst
  | operator op => exact closes_pressOperator h op
  | negate => exact closes_pressNegate h
  | equals => exact closes_pressEquals h hs
  | backspace => exact closes_pressBackspace h hs
  | reset => exact closes_nil
  | load number => exact closes_load hs number st

theorem closes_pressAll (h : Closes 0 st.formula) (hst : st.Consistent) (hs : s.SparesParens)
    (keys : List Key) : Closes 0 (st.pressAll s keys).1.formula := by
  induction keys generalizing st with
  | nil => exact h
  | cons key keys ih => exact ih (closes_press h hst hs key) (hst.press hs key)

/-! ### The closed formula -/

/-- The equals key closes exactly what is open. -/
theorem balanced_closed (h : Closes 0 st.formula) (hst : st.Consistent) : Balanced st.closed := by
  have hcount : st.formula.foldl openAfter 0 = st.openCount := hst.counted.symm
  have hreplicate := closes_replicate st.openCount
  have hcloses : Closes 0 st.closed := closes_append.2 ⟨h, hcount.symm ▸ hreplicate⟩
  refine hcloses.balanced ?_
  rw [unmatched, closed, List.foldl_append, hcount]
  have hnone := hreplicate.foldl_add_count
  rw [List.count_replicate_self, List.count_replicate] at hnone
  simpa using hnone

/-! ### The equals key -/

/-- A parenthesis closed by hand is one less for the equals key to close. -/
theorem closed_pressClose (st : State) : st.pressClose.closed = st.closed := by
  unfold pressClose
  split
  · rfl
  · rename_i hcount
    obtain ⟨count, hcount⟩ := Nat.exists_eq_succ_of_ne_zero hcount
    simp [closed, shown, marked, append, hcount, List.replicate_succ]

/-- The equals key does the same after a parenthesis was closed by hand. -/
theorem pressEquals_pressClose (h : st.Consistent) (s : Separators) :
    st.pressClose.pressEquals s = st.pressEquals s := by
  by_cases hcount : st.openCount = 0
  · rw [pressClose, if_pos hcount]
  · have hmark : st.mark ≠ .afterError := fun hmark => hcount (h.openCount_of_error hmark)
    have hne : st.formula ≠ [] := by
      intro hnil
      have hcounted := h.counted
      rw [Counted, hnil] at hcounted
      exact hcount hcounted
    have hclosed := closed_pressClose st
    have hclose : st.pressClose = ⟨st.formula ++ [')'], st.formula ++ [')'], st.evaluated,
        st.openCount - 1, .idle⟩ := if_neg hcount
    have hskip : (st.formula.isEmpty || st.isError) = false := by simp [isError, hne, hmark]
    have hskip' : (st.pressClose.formula.isEmpty || st.pressClose.isError) = false := by
      simp [isError, hclose]
    rw [pressEquals, pressEquals, hskip, hskip', hclosed, hclose]
    rfl

/-- Closing everything by hand before the equals key changes nothing. -/
theorem Consistent.pressAll_close (h : st.Consistent) (s : Separators) :
    st.pressAll s (List.replicate st.openCount .close ++ [.equals]) =
      st.pressAll s [.equals] := by
  induction hcount : st.openCount generalizing st with
  | zero => rfl
  | succ count ih =>
    have hfewer : st.pressClose.openCount = count := by
      simp [State.pressClose, shown, marked, hcount]
    calc st.pressAll s (List.replicate (count + 1) .close ++ [.equals])
      _ = st.pressClose.pressAll s (List.replicate count .close ++ [.equals]) := rfl
      _ = st.pressClose.pressAll s [.equals] := ih h.pressClose hfewer
      _ = st.pressAll s [.equals] :=
        congrArg (fun step => (step.1, step.2.toList ++ [])) (pressEquals_pressClose h s)

/-- In a session with separators that are no parentheses, loading included, no prefix of the formula
closes more than it opens, so the text that the equals key evaluates is balanced. Closing all open
parentheses by hand and then pressing the equals key leaves the same state and records the same
calculation as pressing the equals key alone, whether there is a value or not. -/
theorem pressAll_close_equals (hs : s.SparesParens) (keys : List Key) :
    let st := (initial.pressAll s keys).1
    (∀ before, before <+: st.formula → before.count ')' ≤ before.count '(') ∧
      Balanced st.closed ∧
      st.pressAll s (List.replicate st.openCount .close ++ [.equals]) =
        st.pressAll s [.equals] := by
  intro st
  have hconsistent : st.Consistent := consistent_initial.pressAll hs keys
  have hcloses : Closes 0 st.formula :=
    closes_pressAll (closes_of_not_isParen (by simp [initial, isParen])) consistent_initial hs keys
  refine ⟨?_, balanced_closed hcloses hconsistent, hconsistent.pressAll_close s⟩
  simpa using closes_iff_count_le.1 hcloses

/-- A loaded text with a closing parenthesis that closes nothing, and two that stay open. -/
theorem pressAll_close_equals_loaded :
    let s : Separators := ⟨'.', '.'⟩
    let st := (initial.pressAll s [.load ")2×((3+4".toList]).1
    st.formula = "2×((3+4".toList ∧ st.closed = "2×((3+4))".toList ∧ Balanced st.closed ∧
      st.pressAll s [.close, .close, .equals] = st.pressAll s [.equals] := by
  intro s st
  obtain ⟨-, hbalanced, hrun⟩ := pressAll_close_equals (s := s) ⟨by decide, by decide⟩
    [.load ")2×((3+4".toList]
  exact ⟨by decide +kernel, by decide +kernel, hbalanced, hrun⟩

end State

end PocketCalculator
