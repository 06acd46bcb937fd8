import PocketCalculator.Editor.Press
import PocketCalculator.Proofs.Number.Threes

/-!
# The formula is grouped after every key

Some keys group the formula again. The others change it at its end only where no number has to be
grouped in another way: behind an operator or a parenthesis, or by a decimal separator. So in every
run each number of the formula is cut in threes (`regroup_pressAll`), whatever text was loaded.
-/

namespace PocketCalculator

namespace State

variable {s : Separators} {st : State} {t : Text} {c : Char}

/-! ### Reserved characters -/

theorem isReserved_glyph (op : Operator) : isReserved op.glyph :=
  Separators.isReserved_of_isGlyph (Operator.isGlyph_glyph op)

theorem isReserved_digitChar (d : Fin 10) : isReserved (Nat.digitChar d) := by
  refine Separators.isReserved_of_isDigit ?_
  revert d
  decide

theorem isReserved_of_endsGroup (hc : endsGroup c) : isReserved c := by
  simp only [endsGroup, Bool.or_eq_true, beq_iff_eq] at hc
  rcases hc with rfl | rfl
  · exact Separators.isReserved_of_mem (by decide)
  · exact Separators.isReserved_of_isGlyph (by decide)

theorem isReserved_of_endsNumber (hc : endsNumber c) : isReserved c := by
  simp only [endsNumber, Bool.or_eq_true, beq_iff_eq] at hc
  rcases hc with ((hc | rfl) | rfl) | rfl
  · exact Separators.isReserved_of_isGlyph hc
  · exact Separators.isReserved_of_mem (by decide)
  · exact Separators.isReserved_of_mem (by decide)
  · exact Separators.isReserved_of_mem (by decide)

/-! ### The place of an operator -/

/-- The formula before an operator is made by taking operators and decimal separators away at the
end. -/
theorem operatorPlace_induction {motive : Text → Prop} (ht : motive t)
    (drop : ∀ u c, Operator.isGlyph c ∨ c = s.decimal → motive (u ++ [c]) → motive u) :
    motive (operatorPlace s t) := by
  have hdrop : ∀ {u : Text} {p : Char → Bool}, (∀ c, p c → Operator.isGlyph c ∨ c = s.decimal) →
      u.getLast?.any p → motive u → motive u.dropLast := by
    intro u p hp hany hu
    cases u using List.reverseRecOn with
    | nil => cases hany
    | append_singleton u c =>
      rw [List.getLast?_concat, Option.any_some] at hany
      rw [List.dropLast_concat]
      exact drop u c (hp c hany) hu
  unfold operatorPlace
  split
  · rename_i hend
    have hshorter := hdrop (fun c hc => by simpa using hc) hend ht
    dsimp only
    split
    · rename_i hglyph
      exact hdrop (fun c hc => Or.inl hc) hglyph hshorter
    · exact hshorter
  · exact ht

/-! ### The start of a key -/

/-- What holds of the formula and of the text in the place of an error marker. -/
theorem withoutError_induction {motive : Text → Prop} (h : motive st.formula) (ht : motive t) :
    motive (st.withoutError t).formula := by
  unfold withoutError
  split
  · exact ht
  · exact h

theorem withoutZero_induction {motive : Text → Prop} (h : motive st.formula)
    (hnil : motive []) : motive st.withoutZero.formula := by
  unfold withoutZero
  split
  · exact hnil
  · exact h

theorem multiplyAfter_induction {motive : Text → Prop} (h : motive st.formula)
    (htimes : motive (st.formula ++ [Operator.times.glyph])) (p : Char → Bool) :
    motive (st.multiplyAfter p).formula := by
  unfold multiplyAfter
  split
  · exact htimes
  · exact h

/-! ### The end of the formula -/

/-- A decimal separator at the end belongs to the last number. -/
theorem decimal_mem_lastNumber (hs : s.Accepted) (h : t.getLast? = some s.decimal) :
    s.decimal ∈ lastNumber t := by
  have hends : endsNumber s.decimal = false := by
    by_contra hc
    exact hs.ne_decimal (isReserved_of_endsNumber (by simpa using hc)) rfl
  cases t using List.reverseRecOn with
  | nil => cases h
  | append_singleton t c =>
    obtain rfl : c = s.decimal := by simpa using h
    rw [lastNumber, List.reverse_concat, List.takeWhile_cons_of_pos (by simp [hends])]
    simp

theorem loose_glyph (hs : s.Accepted) (op : Operator) : s.Loose op.glyph :=
  hs.loose_of_isReserved (isReserved_glyph op) (by cases op <;> decide)

theorem loose_of_isGlyph (hs : s.Accepted) (hc : Operator.isGlyph c) : s.Loose c := by
  obtain ⟨op, rfl⟩ := Operator.isGlyph_iff.1 hc
  exact loose_glyph hs op

theorem loose_decimal (s : Separators) : s.Loose s.decimal := Or.inr rfl

theorem loose_open (hs : s.Accepted) : s.Loose '(' :=
  hs.loose_of_isReserved (Separators.isReserved_of_mem (by decide)) (by decide)

theorem loose_close (hs : s.Accepted) : s.Loose ')' :=
  hs.loose_of_isReserved (Separators.isReserved_of_mem (by decide)) (by decide)

/-! ### Every key -/

theorem grouped_pressDigit (h : s.Grouped st.formula) (d : Fin 10) :
    s.Grouped (st.pressDigit s d).formula := by
  unfold pressDigit
  dsimp only
  split
  · exact withoutError_induction h s.grouped_nil
  · exact s.grouped_regroup _

theorem grouped_pressPoint (hs : s.Accepted) (h : s.Grouped st.formula) :
    s.Grouped (st.pressPoint s).formula := by
  have hclear := withoutError_induction (motive := s.Grouped) h s.grouped_nil
  unfold pressPoint
  dsimp only
  generalize st.withoutError [] = st' at hclear
  split
  · exact hclear
  · rename_i hpoint
    split
    · rename_i c hc
      split
      · exact hclear.concat hs (loose_decimal s)
      · rename_i hdigit
        split
        · have htimes := hclear.concat hs (loose_glyph hs .times)
          have hzero := htimes.concat_zero hs fun c hc => by
            rw [List.getLast?_concat] at hc
            cases hc
            exact hs.isNumeric_eq_false (Separators.isReserved_of_isGlyph (by decide)) (by decide)
          rw [List.append_assoc] at hzero
          exact hzero.concat hs (loose_decimal s)
        · have hdecimal : c ≠ s.decimal := by
            rintro rfl
            refine hpoint (List.contains_iff_mem.2 (decimal_mem_lastNumber hs hc))
          have hgrouping : c ≠ s.grouping := hclear.getLast?_ne hc
          have hzero := hclear.concat_zero hs fun d hd => by
            rw [hc] at hd
            cases hd
            simp [Separators.isNumeric, hdigit, hdecimal, hgrouping]
          exact hzero.concat hs (loose_decimal s)
    · rename_i hnone
      have hzero := hclear.concat_zero hs fun c hc => by
        rw [hnone] at hc
        cases hc
      exact hzero.concat hs (loose_decimal s)

theorem grouped_pressOpen (hs : s.Accepted) (h : s.Grouped st.formula) :
    s.Grouped st.pressOpen.formula := by
  have hclear := withoutError_induction (motive := s.Grouped) h s.grouped_nil
  have hnonzero := withoutZero_induction hclear s.grouped_nil
  have htimes := hnonzero.concat hs (loose_glyph hs .times)
  exact Separators.Grouped.concat (multiplyAfter_induction hnonzero htimes _) hs (loose_open hs)

theorem grouped_pressClose (hs : s.Accepted) (h : s.Grouped st.formula) :
    s.Grouped st.pressClose.formula := by
  unfold pressClose
  split
  · exact h
  · exact h.concat hs (loose_close hs)

theorem grouped_pressOperator (hs : s.Accepted) (h : s.Grouped st.formula) (op : Operator) :
    s.Grouped (st.pressOperator s op).formula := by
  have hclear := withoutError_induction (motive := s.Grouped) h hs.grouped_zero
  have hplace : s.Grouped (operatorPlace s (st.withoutError ['0']).formula) :=
    operatorPlace_induction hclear fun u c hc hu =>
      hu.of_concat hs (hc.elim (loose_of_isGlyph hs) Or.inr)
  unfold pressOperator
  dsimp only [shown, marked]
  split
  · exact hplace
  · exact hplace.concat hs (loose_glyph hs op)

theorem grouped_pressNegate (hs : s.Accepted) (h : s.Grouped st.formula) :
    s.Grouped st.pressNegate.formula := by
  unfold pressNegate
  split
  · exact s.grouped_nil.concat hs (loose_glyph hs .minus)
  · exact h

theorem grouped_pressEquals (hs : s.Accepted) (h : s.Grouped st.formula) :
    s.Grouped (st.pressEquals s).1.formula := by
  unfold pressEquals
  dsimp only
  split
  · exact h
  · split
    · exact hs.grouped_errorMarker
    · split
      · rename_i hfinite
        exact hs.grouped_readout hfinite
      · exact hs.grouped_errorMarker

theorem grouped_pressBackspace (s : Separators) (st : State) :
    s.Grouped (st.pressBackspace s).formula := by
  unfold pressBackspace
  split
  · exact s.grouped_nil
  · exact s.grouped_regroup _

/-- Every key leaves a grouped formula grouped. -/
theorem grouped_press (hs : s.Accepted) (h : s.Grouped st.formula) (key : Key) :
    s.Grouped (st.press s key).1.formula := by
  cases key with
  | digit d => exact grouped_pressDigit h d
  | point => exact grouped_pressPoint hs h
  | «open» => exact grouped_pressOpen hs h
  | close => exact grouped_pressClose hs h
  | operator op => exact grouped_pressOperator hs h op
  | negate => exact grouped_pressNegate hs h
  | equals => exact grouped_pressEquals hs h
  | backspace => exact grouped_pressBackspace s st
  | reset => exact s.grouped_nil
  | load number => exact s.grouped_regroup _

/-! ### Runs -/

theorem grouped_pressAll (hs : s.Accepted) (h : s.Grouped st.formula) (keys : List Key) :
    s.Grouped (st.pressAll s keys).1.formula := by
  induction keys generalizing st with
  | nil => exact h
  | cons key keys ih => exact ih (grouped_press hs h key)

/-- In a session grouping never changes the formula: every number in it is cut in threes before its
first decimal separator, with each grouping separator between two digits, and not cut behind it. -/
theorem regroup_pressAll (hs : s.check = .ok ()) (keys : List Key) :
    let formula := (initial.pressAll s keys).1.formula
    s.regroup formula = formula ∧
      ∀ run, s.IsRunOf run formula → s.IsCut run ∧
        ∀ before after, run = before ++ s.grouping :: after →
          before.getLast?.any Char.isDigit ∧ after.head?.any Char.isDigit := by
  have hs := Separators.check_eq_ok_iff.1 hs
  intro formula
  have hgrouped : s.Grouped formula := grouped_pressAll hs hs.grouped_zero keys
  refine ⟨hgrouped, fun run hrun => ?_⟩
  have hcut : s.IsCut run := (Separators.grouped_iff hs).1 hgrouped run hrun
  exact ⟨hcut, fun before after => hcut.between hs⟩

/-- A loaded text with misplaced separators, a digit typed behind it, and one taken away. -/
theorem regroup_pressAll_loaded :
    let s : Separators := ⟨',', '.'⟩
    let keys : List Key := [.load "12.34567,8.901×.1234".toList, .digit 5, .digit 6, .backspace]
    let formula := (initial.pressAll s keys).1.formula
    formula = "1.234.567,8901×12.345".toList ∧ s.regroup formula = formula ∧
      ∀ run, s.IsRunOf run formula → s.IsCut run ∧
        ∀ before after, run = before ++ s.grouping :: after →
          before.getLast?.any Char.isDigit ∧ after.head?.any Char.isDigit :=
  ⟨by decide +kernel, regroup_pressAll (by decide +kernel) _⟩

end State

end PocketCalculator
