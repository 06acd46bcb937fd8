import PocketCalculator.Proofs.Editor.Consistency

/-!
# Backspace takes back a character

Keys and backspace group the whole formula again, so the grouping separators move with every digit.
A grouped formula is known from its other characters, though: if a key adds one of these, backspace
brings back the formula with all its separators, and the count of its open parentheses with it.
-/

namespace PocketCalculator

/-- Whether a key is a digit, the decimal point, a parenthesis or an operator. -/
def Key.isWritten : Key → Bool
  | .digit _ | .point | .open | .close | .operator _ => true
  | .negate | .equals | .backspace | .reset | .load _ => false

namespace Separators

variable {s : Separators} {c : Char} {t u : Text}

/-- A grouped formula ends with the character that it has more than another one. -/
theorem Grouped.regroup_dropLast (ht : s.Grouped t) (hu : s.Grouped u)
    (h : s.ungroup u = s.ungroup t ++ [c]) : s.regroup u.dropLast = t := by
  have hlast : u.getLast? = some c := by
    rw [hu.getLast?_eq, h, List.getLast?_concat]
  have hungroup : s.ungroup u.dropLast = s.ungroup t := by
    obtain ⟨v, rfl⟩ := List.getLast?_eq_some_iff.1 hlast
    have hc : s.ungroup [c] = [c] := ungroup_cons_of_ne (hu.getLast?_ne hlast) []
    rw [ungroup_append, hc] at h
    rw [List.dropLast_concat]
    exact List.append_cancel_right h
  rw [regroup_congr hungroup]
  exact ht

end Separators

namespace State

variable {s : Separators} {st : State} {c : Char}

/-- A key that is written leaves no error, unless there was one already. -/
theorem mark_press_of_isWritten {key : Key} (hkey : key.isWritten) (hmark : st.mark ≠ .afterError) :
    (st.press s key).1.mark ≠ .afterError := by
  have hidle : Mark.idle ≠ .afterError := by decide
  have hoperator : Mark.afterOperator ≠ .afterError := by decide
  cases key with
  | digit d => exact mark_pressDigit s st d
  | point => exact mark_pressPoint s st
  | «open» => exact hidle
  | close =>
    simp only [press, pressClose]
    split
    · exact hmark
    · exact hidle
  | operator op => exact hoperator
  | negate => cases hkey
  | equals => cases hkey
  | backspace => cases hkey
  | reset => cases hkey
  | load number => cases hkey

/-- Backspace brings back a grouped formula to which one character was added. -/
theorem pressBackspace_of_ungroup_eq {st' : State} (hs : s.Accepted)
    (hmark : st'.mark ≠ .afterError) (hne : st.formula ≠ []) (ht : s.Grouped st.formula)
    (hu : s.Grouped st'.formula) (h : s.ungroup st'.formula = s.ungroup st.formula ++ [c]) :
    (st'.pressBackspace s).formula = st.formula ∧
      (st'.pressBackspace s).openCount = unmatched st.formula := by
  have hback : s.regroup st'.formula.dropLast = st.formula := ht.regroup_dropLast hu h
  have herror : st'.isError = false := by simpa [isError] using hmark
  simp only [pressBackspace, herror, Bool.false_eq_true, if_false]
  split
  · rename_i hshort
    -- nothing is left of an empty formula only, so it is a lone zero
    have hzero : st'.formula.dropLast = ['0'] := by
      refine hshort.resolve_left fun hnil => hne ?_
      rw [← hback, hnil, Separators.regroup_nil]
    rw [hzero] at hback
    refine ⟨hback, ?_⟩
    rw [← hback, Separators.unmatched_regroup hs.sparesParens]
    rfl
  · refine ⟨hback, ?_⟩
    rw [← hback, Separators.unmatched_regroup hs.sparesParens]
    rfl

/-- In every state of a session, loading included, with a formula and no error: if a digit, the
decimal point, a parenthesis or an operator adds one character besides the grouping separators,
backspace brings back the formula, with its separators, and the number of open parentheses. -/
theorem pressBackspace_press (hs : s.check = .ok ()) (keys : List Key) {key : Key}
    (hkey : key.isWritten) {c : Char} :
    let st := (initial.pressAll s keys).1
    let next := (st.press s key).1
    let back := (next.press s .backspace).1
    st.mark ≠ .afterError → st.formula ≠ [] →
      s.ungroup next.formula = s.ungroup st.formula ++ [c] →
      back.formula = st.formula ∧ back.openCount = st.openCount := by
  have hs := Separators.check_eq_ok_iff.1 hs
  intro st next back hmark hne hadded
  have hgrouped : s.Grouped st.formula := grouped_pressAll hs hs.grouped_zero keys
  have hconsistent : st.Consistent := consistent_initial.pressAll hs.sparesParens keys
  rw [hconsistent.counted]
  exact pressBackspace_of_ungroup_eq hs (mark_press_of_isWritten hkey hmark) hne hgrouped
    (grouped_press hs hgrouped key) hadded

/-- A digit that moves the separators of a loaded number, behind an open parenthesis. -/
theorem pressBackspace_press_loaded :
    let s : Separators := ⟨',', '.'⟩
    let st := (initial.pressAll s [.load "2×(123456,5-(234".toList]).1
    let next := (st.press s (.digit 5)).1
    let back := (next.press s .backspace).1
    st.formula = "2×(123.456,5-(234".toList ∧ next.formula = "2×(123.456,5-(2.345".toList ∧
      back.formula = st.formula ∧ back.openCount = st.openCount :=
  ⟨by decide +kernel, by decide +kernel,
    pressBackspace_press (c := '5') (by decide +kernel) _ (by decide) (by decide +kernel)
      (by decide +kernel) (by decide +kernel)⟩

end State

end PocketCalculator
