import PocketCalculator.Proofs.Editor.Bare
import PocketCalculator.Proofs.Formula.Balance
import PocketCalculator.Proofs.Formula.Ending
import PocketCalculator.Proofs.Number.Readout

/-!
# What loading leaves as it is

Loading a text trims it, drops the closing parentheses that close nothing and groups its numbers. A
text is clean if there is nothing of this to do, and then the editor shows it as it is
(`Separators.Clean.load_eq`). Readouts are clean, so a result that is recalled, or left in the
editor, is shown and evaluated to itself again.
-/

namespace PocketCalculator

variable {c : Char} {count : Nat} {e : Ending} {t : Text}

/-! ### Closing parentheses -/

/-- The keys put a closing parenthesis only where one is open. -/
theorem Ending.TypedFrom.closes (h : Ending.TypedFrom e count t) : Closes count t := by
  induction t generalizing e count with
  | nil => trivial
  | cons c t ih => exact ⟨h.2.1, ih h.2.2⟩

namespace Separators

variable {s : Separators} {value : Float}

/-- Grouping and the decimal separator have no part in it. -/
theorem closes_bare_iff (hs : s.Accepted) : Closes count (s.bare t) ↔ Closes count t := by
  refine Iff.trans ?_ (closes_ungroup_iff hs.sparesParens)
  rw [bare]
  generalize s.ungroup t = u
  induction u generalizing count with
  | nil => exact Iff.rfl
  | cons c u ih =>
    have hclose : s.bareChar c = ')' ↔ c = ')' := by
      have hsame := hs.apply_bareChar (p := (· == ')'))
        (fun d hd => isReserved_of_mem (by simp [beq_iff_eq.1 hd])) c
      rw [← beq_iff_eq, hsame, beq_iff_eq]
    rw [List.map_cons, Closes, Closes, hclose, openAfter_bareChar hs.sparesParens, ih]

/-! ### Blank ends -/

/-- Whether a bare character is not shown as a blank one. -/
def Visible (s : Separators) (c : Char) : Prop :=
  isBlank c = false ∧ (c = '.' → isBlank s.decimal = false)

theorem isBlank_of_visible (h : s.Visible (s.bareChar c)) : isBlank c = false := by
  by_cases hdecimal : c = s.decimal
  · rw [hdecimal]
    apply h.2
    rw [hdecimal, bareChar_decimal]
  · have hsame : s.bareChar c = c := if_neg hdecimal
    rw [hsame] at h
    exact h.1

theorem visible_of_ne_point (hblank : isBlank c = false) (hpoint : c ≠ '.') : s.Visible c :=
  ⟨hblank, fun e => absurd e hpoint⟩

/-! ### Loading -/

/-- Whether loading changes nothing in a text. -/
structure Clean (s : Separators) (t : Text) : Prop where
  head : StopsAt isBlank t
  last : StopsAt isBlank t.reverse
  closes : Closes 0 t
  grouped : s.Grouped t

/-- A clean text is loaded as it is. -/
theorem Clean.load_eq (h : s.Clean t) (st : State) :
    st.load s t = ⟨t, t, [], unmatched t, .idle⟩ := by
  have htrim : trim t = t := by
    rw [trim, h.head.dropWhile_eq, h.last.dropWhile_eq, List.reverse_reverse]
  have hstray : dropStray t = t := dropStrayFrom_eq_self h.closes
  have hgrouped : s.regroup t = t := h.grouped
  simp only [State.load, htrim, hstray, State.regroup, State.shown, State.reset, hgrouped]

/-- A grouped text is clean if its bare text is. -/
theorem clean_of_bare (hs : s.Accepted) (hgrouped : s.Grouped t)
    (hhead : ∀ c, (s.bare t).head? = some c → s.Visible c)
    (hlast : ∀ c, (s.bare t).getLast? = some c → s.Visible c)
    (hcloses : Closes 0 (s.bare t)) : s.Clean t := by
  refine ⟨?_, ?_, (closes_bare_iff hs).1 hcloses, hgrouped⟩
  · intro c hc
    apply isBlank_of_visible
    apply hhead
    rw [hgrouped.head?_bare, hc]
    rfl
  · intro c hc
    rw [List.head?_reverse] at hc
    apply isBlank_of_visible
    apply hlast
    rw [hgrouped.getLast?_bare, hc]
    rfl

/-! ### Readouts -/

theorem visible_of_isDigit (hc : c.isDigit) : s.Visible c := by
  refine visible_of_ne_point (Expression.isBlank_eq_false_of_isLiteralChar ?_) ?_
  · rw [Expression.isLiteralChar, hc]
    rfl
  · rintro rfl
    exact absurd hc (by decide)

/-- A readout starts with a digit or a minus sign and ends with a digit, and has no parentheses. -/
theorem clean_readout (hs : s.Accepted) (h : value.isFinite) : s.Clean (s.readout value) := by
  obtain ⟨t, ht⟩ := exists_doubleText?_eq_some h
  obtain ⟨x, hx⟩ := exists_text_of_doubleText?_eq_some ht
  have hbare := hs.bare_readout ht
  have hplain : ∀ c ∈ x.text, isParen c = false := fun c hc =>
    isParen_of_isLiteralChar (x.isNumber_text.isDigitOrPoint_of_mem hc)
  have hfirst : ∀ c, x.text.head? = some c → s.Visible c := fun c hc =>
    visible_of_isDigit (x.isNumber_text.isDigit_of_head? hc)
  have hend : ∀ c, x.text.getLast? = some c → s.Visible c := fun c hc =>
    visible_of_isDigit (Decimal.isDigit_of_getLast?_text hc)
  refine clean_of_bare hs (hs.grouped_readout h) ?_ ?_ (closes_of_not_isParen ?_)
  · rw [hbare]
    rcases hx with rfl | rfl
    · exact hfirst
    · intro c hc
      obtain rfl := Option.some.inj hc
      exact visible_of_ne_point (by decide) (by decide)
  · rw [hbare]
    rcases hx with rfl | rfl
    · exact hend
    · intro c hc
      obtain ⟨d, u, hd⟩ := List.exists_cons_of_ne_nil x.isNumber_text.ne_nil
      rw [hd, List.getLast?_cons_cons, ← hd] at hc
      exact hend c hc
  · rw [hbare]
    rcases hx with rfl | rfl
    · exact hplain
    · exact List.forall_mem_cons.2 ⟨rfl, hplain⟩

theorem readout_ne_nil (hs : s.Accepted) (h : value.isFinite) : s.readout value ≠ [] := by
  obtain ⟨t, ht⟩ := exists_doubleText?_eq_some h
  obtain ⟨x, hx⟩ := exists_text_of_doubleText?_eq_some ht
  intro hnil
  have hbare := hs.bare_readout ht
  rw [hnil, bare_nil] at hbare
  rcases hx with rfl | rfl
  · exact x.isNumber_text.ne_nil hbare.symm
  · cases hbare

end Separators

/-! ### The equals key -/

namespace State

variable {s : Separators} {value : Float} {st : State} {calculation : Calculation}

/-- The calculation of a formula with all parentheses closed: there is one if the formula is not
empty nor the error marker and has a finite value. -/
def calculation? (s : Separators) (st : State) : Option Calculation :=
  if st.formula = [] ∨ st.mark = .afterError then none
  else
    match evaluate (s.plain st.closed) with
    | .error _ => none
    | .ok value => if value.isFinite then some ⟨st.closed, s.readout value⟩ else none

theorem calculation?_eq_some_iff : st.calculation? s = some calculation ↔
    st.formula ≠ [] ∧ st.mark ≠ .afterError ∧ ∃ value, evaluate (s.plain st.closed) = .ok value ∧
      value.isFinite ∧ calculation = ⟨st.closed, s.readout value⟩ := by
  unfold calculation?
  constructor
  · intro h
    split at h
    · cases h
    · rename_i hskip
      rw [not_or] at hskip
      split at h
      · cases h
      · rename_i value hvalue
        split at h
        · rename_i hfinite
          exact ⟨hskip.1, hskip.2, value, hvalue, hfinite, (Option.some.inj h).symm⟩
        · cases h
  · rintro ⟨hne, hmark, value, hvalue, hfinite, rfl⟩
    rw [if_neg (by simp [hne, hmark]), hvalue]
    exact if_pos hfinite

theorem skips_iff (st : State) :
    (st.formula.isEmpty || st.isError) ↔ st.formula = [] ∨ st.mark = .afterError := by
  simp [isError]

/-- The equals key completes this calculation. -/
theorem pressEquals_snd (s : Separators) (st : State) :
    (st.pressEquals s).2 = st.calculation? s := by
  unfold pressEquals calculation?
  by_cases hskip : st.formula = [] ∨ st.mark = .afterError
  · rw [if_pos ((skips_iff st).2 hskip), if_pos hskip]
  · rw [if_neg (mt (skips_iff st).1 hskip), if_neg hskip]
    cases evaluate (s.plain st.closed) with
    | error e => rfl
    | ok value =>
      dsimp only
      split
      · rfl
      · rfl

/-- What it shows is the result. -/
theorem pressEquals_of_some (h : st.calculation? s = some calculation) :
    st.pressEquals s =
      (⟨calculation.result, calculation.result, calculation.formula, 0, .afterEvaluation⟩,
        some calculation) := by
  obtain ⟨hne, hmark, value, hvalue, hfinite, rfl⟩ := calculation?_eq_some_iff.1 h
  have hskip : ¬ (st.formula = [] ∨ st.mark = .afterError) := by simp [hne, hmark]
  unfold pressEquals
  rw [if_neg (mt (skips_iff st).1 hskip), hvalue]
  dsimp only
  rw [if_pos hfinite]

/-- A readout in the place of the formula is evaluated to itself. -/
theorem calculation?_readout (hs : s.Accepted) (h : value.isFinite)
    (hformula : st.formula = s.readout value) (hcount : st.openCount = 0)
    (hmark : st.mark ≠ .afterError) :
    st.calculation? s = some ⟨s.readout value, s.readout value⟩ := by
  have hclosed : st.closed = s.readout value := by
    rw [closed, hcount, hformula, List.replicate_zero, List.append_nil]
  have hne : st.formula ≠ [] := hformula ▸ Separators.readout_ne_nil hs h
  refine calculation?_eq_some_iff.2 ⟨hne, hmark, shownValue value, ?_, isFinite_shownValue h, ?_⟩
  · rw [hclosed]
    exact hs.evaluate_plain_readout h
  · rw [hclosed, Separators.readout_shownValue]

/-- With accepted separators a readout is the decimal text of its value, and evaluates to it, but
for the sign of a zero. Recalled into any state it is shown as it is, and the equals key evaluates
it to itself. In particular the equals key can be pressed again after every calculation, and changes
neither the formula nor the readout. -/
theorem readout_denotes (hs : s.check = .ok ()) :
    (∀ value : Float, value.isFinite →
      doubleText? (shownValue value) = some (s.plain (s.readout value)) ∧
      evaluate (s.plain (s.readout value)) = .ok (shownValue value) ∧
      (shownValue value == value) ∧ (value ≠ -0 → shownValue value = value) ∧
      ∀ st : State,
        let recalled := st.load s (s.readout value)
        recalled.formula = s.readout value ∧ recalled.readout = s.readout value ∧
          recalled.openCount = 0 ∧
          (recalled.pressEquals s).1.readout = s.readout value ∧
          (recalled.pressEquals s).2 = some ⟨s.readout value, s.readout value⟩) ∧
    ∀ (st : State) (calculation : Calculation), (st.pressEquals s).2 = some calculation →
      let first := (st.pressEquals s).1
      let second := first.pressEquals s
      second.2 = some ⟨first.formula, first.readout⟩ ∧ second.1.formula = first.formula ∧
        second.1.readout = first.readout := by
  have hs := Separators.check_eq_ok_iff.1 hs
  constructor
  · intro value h
    obtain ⟨t, ht⟩ := exists_doubleText?_eq_some h
    refine ⟨?_, hs.evaluate_plain_readout h, shownValue_beq h, fun hne => if_neg hne, ?_⟩
    · rw [doubleText?_shownValue, ht, hs.plain_readout ht]
    · intro st recalled
      have hrecalled : recalled = _ := (Separators.clean_readout hs h).load_eq st
      have hcount : unmatched (s.readout value) = 0 :=
        Separators.unmatched_readout hs.sparesParens value
      rw [hcount] at hrecalled
      have hagain : recalled.calculation? s = some ⟨s.readout value, s.readout value⟩ := by
        rw [hrecalled]
        exact calculation?_readout hs h rfl rfl (by simp)
      rw [pressEquals_of_some hagain, hrecalled]
      exact ⟨rfl, rfl, rfl, rfl, rfl⟩
  · intro st calculation h
    rw [pressEquals_snd] at h
    obtain ⟨-, -, value, -, hfinite, rfl⟩ := calculation?_eq_some_iff.1 h
    rw [pressEquals_of_some h]
    intro first second
    have hagain : first.calculation? s = _ :=
      calculation?_readout hs hfinite rfl rfl (by simp [first])
    have hsecond : second = _ := pressEquals_of_some hagain
    rw [hsecond]
    exact ⟨rfl, rfl, rfl⟩

/-- A blank decimal separator: the double `-1234567.5`, and the result of `1+1`. -/
theorem readout_denotes_blank :
    let s : Separators := ⟨' ', '.'⟩
    let value : Float := -1234567.5
    let sum := (initial.pressAll s [.digit 1, .operator .plus, .digit 1]).1
    s.check = .ok () ∧ s.readout value = "-1.234.567 5".toList ∧
      evaluate (s.plain (s.readout value)) = .ok value ∧
      (initial.load s (s.readout value)).readout = s.readout value ∧
      ((sum.pressEquals s).1.pressEquals s).1.readout = ['2'] := by
  intro s value sum
  have hs : s.check = .ok () := by decide +kernel
  have hfinite : value.isFinite := by decide +kernel
  have hsum : (sum.pressEquals s).2 = some ⟨['1', '+', '1'], ['2']⟩ := by decide +kernel
  have hfirst : (sum.pressEquals s).1.readout = ['2'] := by decide +kernel
  obtain ⟨hvalue, hagain⟩ := readout_denotes hs
  obtain ⟨-, hplain, -, hsame, hrecalled⟩ := hvalue value hfinite
  rw [hsame (by decide +kernel)] at hplain
  exact ⟨hs, by decide +kernel, hplain, (hrecalled initial).2.1,
    (hagain sum _ hsum).2.2.trans hfirst⟩

end State

end PocketCalculator
