import PocketCalculator.Proofs.Editor.Replay

/-!
# Neighbours in the formula

Which character the keys put behind another one. A typed text has only neighbours of which each
admits the next (`Ending.admits`), and the neighbours in a displayed formula that are no grouping
separators are neighbours in its bare text. So in a session without loading no operators stack
(`operators_pressAll`).
-/

namespace PocketCalculator

open Ending

variable {s : Separators} {e : Ending} {c d op : Char} {t u : Text}

/-! ### Neighbours in typed texts -/

theorem Typed.admits (h : Typed (t ++ c :: u)) : (ending t).admits c :=
  (typedFrom_append.1 h).2.1

theorem Typed.admits_admits (h : Typed (t ++ c :: d :: u)) :
    (ending t).admits c ∧ ((ending t).after c).admits d := by
  have hsplit : t ++ c :: d :: u = (t ++ [c]) ++ d :: u := by simp
  refine ⟨h.admits, ?_⟩
  rw [hsplit] at h
  simpa using h.admits

/-- Whether an operator can stand behind a character, or at the start of a formula. -/
def OperatorFits (before? : Option Char) (op : Char) : Prop :=
  match before? with
  | none => op = '-'
  | some c => c.isDigit ∨ c = ')' ∨ (c = '(' ∧ op = '-') ∨ (c = '%' ∧ op = '×')

/-- Every operator can follow an operand, a sign the start, and a multiplication a percent sign. -/
theorem cases_of_admits_operator (h : e.admits op) (hop : Operator.isGlyph op) :
    e.isOperand ∨ e = .start ∧ op = '-' ∨ e = .percent ∧ op = '×' := by
  obtain ⟨key, rfl⟩ := Operator.isGlyph_iff.1 hop
  revert h
  cases key <;> cases e <;> decide

theorem operatorFits_of_admits (hc : e.admits c) (h : (e.after c).admits op)
    (hop : Operator.isGlyph op) : OperatorFits (some c) op := by
  have hcases := cases_of_admits_operator h hop
  rcases cases_of_admits hc with hdigit | rfl | rfl | rfl | rfl | hinfix
  · exact Or.inl hdigit
  · simp [isOperand] at hcases
  · have hminus : op = '-' := by simpa [isOperand] using hcases
    exact Or.inr (Or.inr (Or.inl ⟨rfl, hminus⟩))
  · exact Or.inr (Or.inl rfl)
  · have htimes : op = '×' := by simpa [isOperand] using hcases
    exact Or.inr (Or.inr (Or.inr ⟨rfl, htimes⟩))
  · simp [after_of_isInfix hinfix, isOperand] at hcases

/-- Whether every operator of a formula fits behind what is before it. -/
def OperatorsFit (formula : Text) : Prop :=
  ∀ before op after, formula = before ++ op :: after → Operator.isGlyph op →
    OperatorFits before.getLast? op

theorem OperatorsFit.behind (h : OperatorsFit (t ++ c :: op :: u)) (hop : Operator.isGlyph op) :
    OperatorFits (some c) op := by
  have hfits := h (t ++ [c]) op u (by simp) hop
  rwa [List.getLast?_concat] at hfits

theorem OperatorsFit.two (h : OperatorsFit (t ++ c :: op :: u)) (hc : Operator.isGlyph c)
    (hop : Operator.isGlyph op) : c = '%' ∧ op = '×' := by
  rcases h.behind hop with hdigit | rfl | ⟨rfl, -⟩ | ⟨rfl, htimes⟩
  · rw [eq_false_of_isDigit (p := Operator.isGlyph) (by decide) hdigit] at hc
    cases hc
  · cases hc
  · cases hc
  · exact ⟨rfl, htimes⟩

theorem OperatorsFit.not_three (h : OperatorsFit (t ++ c :: d :: op :: u)) :
    ¬ (Operator.isGlyph c ∧ Operator.isGlyph d ∧ Operator.isGlyph op) := by
  rintro ⟨hc, hd, hop⟩
  have htimes : d = '×' := (h.two hc hd).2
  have hsplit : t ++ c :: d :: op :: u = (t ++ [c]) ++ d :: op :: u := by simp
  rw [hsplit] at h
  have hpercent : d = '%' := (h.two hd hop).1
  rw [htimes] at hpercent
  cases hpercent

theorem OperatorsFit.eq_minus (h : OperatorsFit (t ++ op :: u)) (hop : Operator.isGlyph op)
    (hstart : t = [] ∨ t.getLast? = some '(') : op = '-' := by
  have hfits := h t op u rfl hop
  rcases hstart with rfl | hopen
  · exact hfits
  · rw [hopen] at hfits
    simpa [OperatorFits] using hfits

namespace Separators

theorem bare_cons (hc : c ≠ s.grouping) (t : Text) :
    s.bare (c :: t) = s.bareChar c :: s.bare t := by
  rw [bare, ungroup_cons_of_ne hc]
  rfl

theorem Accepted.bareChar_eq_iff (hs : s.Accepted) (hd : isReserved d) :
    s.bareChar c = d ↔ c = d := by
  have hsame := hs.apply_bareChar (p := (· == d)) (fun e he => by simpa [beq_iff_eq.1 he]) c
  simpa using congrArg (· = true) hsame

theorem Accepted.operatorFits_bareChar_iff (hs : s.Accepted) :
    OperatorFits (some (s.bareChar c)) op ↔ OperatorFits (some c) op := by
  have hdigit : (s.bareChar c).isDigit = c.isDigit :=
    hs.apply_bareChar (fun _ => isReserved_of_isDigit) c
  have hopen : s.bareChar c = '(' ↔ c = '(' := hs.bareChar_eq_iff (isReserved_of_mem (by decide))
  have hclose : s.bareChar c = ')' ↔ c = ')' := hs.bareChar_eq_iff (isReserved_of_mem (by decide))
  have hpercent : s.bareChar c = '%' ↔ c = '%' :=
    hs.bareChar_eq_iff (isReserved_of_isGlyph (by decide))
  simp only [OperatorFits, hdigit, hopen, hclose, hpercent]

theorem Accepted.isNumeric_of_isGlyph (hs : s.Accepted) (hc : Operator.isGlyph c) :
    s.isNumeric c = false := by
  have hdigit : c.isDigit = false := by
    obtain ⟨key, rfl⟩ := Operator.isGlyph_iff.1 hc
    cases key <;> decide
  exact hs.isNumeric_eq_false (isReserved_of_isGlyph hc) hdigit

theorem Accepted.not_operatorFits_decimal (hs : s.Accepted) :
    ¬ OperatorFits (some s.decimal) op := by
  have hparen : isParen s.decimal = false := hs.sparesParens.1
  rw [isParen, Bool.or_eq_false_iff, beq_eq_false_iff_ne, beq_eq_false_iff_ne] at hparen
  rintro (hdigit | hclose | ⟨hopen, -⟩ | ⟨hpercent, -⟩)
  · exact hs.ne_decimal (isReserved_of_isDigit hdigit) rfl
  · exact hparen.2 hclose
  · exact hparen.1 hopen
  · exact hs.ne_decimal (isReserved_of_isGlyph (by decide)) hpercent.symm

/-- Before a character outside of numbers stands no grouping separator. -/
theorem Grouped.ne_grouping_of_isNumeric (h : s.Grouped (t ++ c :: d :: u))
    (hd : s.isNumeric d = false) : c ≠ s.grouping := by
  rintro rfl
  have hchain := s.isChain_regroup (t ++ s.grouping :: d :: u)
  rw [h] at hchain
  have hnumeric := (List.isChain_append_cons_cons.1 hchain).2.1 rfl
  rw [hd] at hnumeric
  cases hnumeric

end Separators

namespace State

variable {st : State} {keys : List Key}

/-! ### Neighbours in displayed formulas -/

/-- The first character of a formula is the first of a typed text, or of the error marker. -/
theorem Sound.admits (h : Sound s st) (e : st.formula = c :: t) (hc : c ≠ s.grouping) :
    Ending.start.admits (s.bareChar c) ∨ c ∈ errorMarker := by
  by_cases hmark : st.mark = .afterError
  · right
    rw [← h.consistent.formula_of_error hmark, e]
    exact List.mem_cons_self
  · left
    have htyped : Typed (s.bare st.formula) := h.typed hmark
    rw [e, Separators.bare_cons hc] at htyped
    exact Typed.admits (t := []) htyped

/-- Neighbours in a formula are neighbours in a typed text, or in the error marker. -/
theorem Sound.admits_admits (h : Sound s st) (e : st.formula = t ++ c :: d :: u)
    (hc : c ≠ s.grouping) (hd : d ≠ s.grouping) :
    (∃ e : Ending, e.admits (s.bareChar c) ∧ (e.after (s.bareChar c)).admits (s.bareChar d)) ∨
      c ∈ errorMarker ∧ d ∈ errorMarker := by
  by_cases hmark : st.mark = .afterError
  · right
    rw [← h.consistent.formula_of_error hmark, e]
    simp
  · left
    have htyped : Typed (s.bare st.formula) := h.typed hmark
    rw [e, Separators.bare_append, Separators.bare_cons hc,
      Separators.bare_cons hd] at htyped
    exact ⟨_, htyped.admits_admits⟩

theorem of_mem_errorMarker (hc : c ∈ errorMarker) :
    Operator.isGlyph c = false ∧ isParen c = false := by
  have hall : errorMarker.all fun c => !Operator.isGlyph c && !isParen c := by decide
  simpa using List.all_eq_true.1 hall c hc

/-! ### Operators -/

/-- In every state of a session without loading, the operators of the formula fit. -/
theorem Sound.operatorsFit (h : Sound s st) (hs : s.Accepted) : OperatorsFit st.formula := by
  intro before op after e hop
  have hreserved : isReserved op := Separators.isReserved_of_isGlyph hop
  have hmarker : op ∉ errorMarker := fun hmem => by
    rw [(of_mem_errorMarker hmem).1] at hop
    cases hop
  have hne : op ≠ s.grouping := hs.ne_grouping hreserved
  cases before using List.reverseRecOn with
  | nil =>
    have hstart := (h.admits e hne).resolve_right hmarker
    rw [hs.bareChar_eq hreserved] at hstart
    have hminus : op = '-' := by simpa [isOperand] using cases_of_admits_operator hstart hop
    exact hminus
  | append_singleton t c =>
    have e : st.formula = t ++ c :: op :: after := by simpa using e
    have hgrouped : s.Grouped (t ++ c :: op :: after) := e ▸ h.neat.grouped
    have hc := hgrouped.ne_grouping_of_isNumeric (hs.isNumeric_of_isGlyph hop)
    obtain ⟨ending, hfirst, hsecond⟩ :=
      (h.admits_admits e hc hne).resolve_right fun hmem => hmarker hmem.2
    rw [hs.bareChar_eq hreserved] at hsecond
    rw [List.getLast?_concat]
    exact hs.operatorFits_bareChar_iff.1 (operatorFits_of_admits hfirst hsecond hop)

/-- In a session without loading every operator follows a digit or a closing parenthesis, except
that a minus can also start the formula or a group and a multiplication can also follow a percent
sign. So the only two operators side by side are `%×`, there are never three, none follows a decimal
separator, and only a minus starts a formula or a group. -/
theorem operators_pressAll (hs : s.check = .ok ()) (hkeys : ∀ key ∈ keys, ∀ t, key ≠ .load t) :
    let formula := (initial.pressAll s keys).1.formula
    (∀ before op after, formula = before ++ op :: after → Operator.isGlyph op →
      OperatorFits before.getLast? op) ∧
    (∀ before c op after, formula = before ++ c :: op :: after → Operator.isGlyph c →
      Operator.isGlyph op → c = '%' ∧ op = '×') ∧
    (∀ before b c op after, formula = before ++ b :: c :: op :: after →
      ¬ (Operator.isGlyph b ∧ Operator.isGlyph c ∧ Operator.isGlyph op)) ∧
    (∀ before op after, formula = before ++ s.decimal :: op :: after →
      Operator.isGlyph op = false) ∧
    (∀ before op after, formula = before ++ op :: after → Operator.isGlyph op →
      before = [] ∨ before.getLast? = some '(' → op = '-') := by
  have hs := Separators.check_eq_ok_iff.1 hs
  intro formula
  have hsound : Sound s (initial.pressAll s keys).1 := (sound_initial hs).pressAll hs hkeys
  have hfit : OperatorsFit formula := hsound.operatorsFit hs
  refine ⟨hfit, ?_, ?_, ?_, ?_⟩
  · intro before c op after e
    rw [e] at hfit
    exact hfit.two
  · intro before b c op after e
    rw [e] at hfit
    exact hfit.not_three
  · intro before op after e
    rw [e] at hfit
    by_contra hop
    exact hs.not_operatorFits_decimal (hfit.behind (by simpa using hop))
  · intro before op after e
    rw [e] at hfit
    exact hfit.eq_minus

/-- A percentage and a product with it, an operator that takes the place of both `%×`, and the
negative result. -/
theorem operators_pressAll_percent :
    let s : Separators := ⟨',', '.'⟩
    let product : List Key := [.operator .minus, .digit 5, .operator .percent, .open]
    let formula := (initial.pressAll s product).1.formula
    let replaced := (initial.pressAll s (product ++ [.backspace, .operator .plus])).1.formula
    formula = "0-5%×(".toList ∧ replaced = "0-5+".toList ∧
      ∀ before op after, formula = before ++ op :: after → Operator.isGlyph op →
        OperatorFits before.getLast? op :=
  ⟨by decide +kernel, by decide +kernel, (operators_pressAll (by decide +kernel) (by simp)).1⟩

end State

end PocketCalculator
