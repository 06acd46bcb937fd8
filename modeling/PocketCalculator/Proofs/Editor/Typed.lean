import PocketCalculator.Proofs.Editor.Bare
import PocketCalculator.Proofs.Editor.Consistency
import PocketCalculator.Proofs.Formula.Ending

/-!
# The formula is typed

Without loading, what a session shows for a formula is a typed text after every key, unless it is
the error marker: a key looks at the end of the formula and puts there only what belongs there, a
result is a typed number, and backspace leaves the start of a typed text.
-/

namespace PocketCalculator

open Ending

variable {c : Char} {t u : Text}

/-! ### The end of a typed text -/

theorem Typed.any_endsGroup (h : Typed t) :
    t.getLast?.any State.endsGroup = (ending t == .close || ending t == .percent) := by
  refine h.any_getLast?_eq (q := fun e => e == .close || e == .percent) (fun e => ?_) rfl
  cases e <;> decide

theorem Typed.any_isDigit (h : Typed t) :
    t.getLast?.any Char.isDigit = (ending t == .integer || ending t == .fraction) := by
  refine h.any_getLast?_eq (q := fun e => e == .integer || e == .fraction) (fun e => ?_) rfl
  cases e <;> decide

theorem Typed.any_isGlyph (h : Typed t) :
    t.getLast?.any Operator.isGlyph = (ending t == .operator || ending t == .percent) := by
  refine h.any_getLast?_eq (q := fun e => e == .operator || e == .percent) (fun e => ?_) rfl
  cases e <;> decide

/-- Only at the start, or in a group that has just been opened, is a sign all that can stand. -/
theorem Typed.all_open (h : Typed t) :
    t.getLast?.all (· = '(') = (ending t == .start) := by
  have hnot := h.any_getLast?_eq (p := (· ≠ '(')) (q := fun e => e != .start)
    (fun e => by cases e <;> decide) rfl
  rw [← Bool.not_inj_iff, ← bne, ← hnot]
  cases t.getLast? with
  | none => rfl
  | some c => simp

namespace State

theorem lastNumber_concat (t : Text) (c : Char) :
    lastNumber (t ++ [c]) = if endsNumber c then [] else lastNumber t ++ [c] := by
  rw [lastNumber, List.reverse_concat]
  by_cases hc : endsNumber c
  · rw [if_pos hc, List.takeWhile_cons_of_neg (by simp [hc])]
    rfl
  · rw [if_neg hc, List.takeWhile_cons_of_pos (by simpa using hc), List.reverse_cons]
    rfl

/-- The last number has a point exactly if the text ends with a point or the digits behind it. -/
theorem point_mem_lastNumber_iff (h : Typed t) :
    '.' ∈ lastNumber t ↔ ending t = .point ∨ ending t = .fraction := by
  induction t using List.reverseRecOn with
  | nil => simp [lastNumber]
  | append_singleton t c ih =>
    have ht := ih h.of_append
    rw [lastNumber_concat, ending_concat]
    rcases cases_of_admits (typed_concat.1 h).2.1 with hc | rfl | rfl | rfl | rfl | hc
    · have hends : endsNumber c = false := eq_false_of_isDigit (by decide) hc
      have hne : c ≠ '.' := by
        rintro rfl
        exact absurd hc (by decide)
      have hmem : '.' ∈ lastNumber t ++ [c] ↔ '.' ∈ lastNumber t := by simp [hne.symm]
      rw [hends, if_neg Bool.false_ne_true, hmem, ht, after_digit hc]
      split
      · rename_i hpoint
        simp [hpoint]
      · rename_i hpoint
        simp [hpoint]
    · simp [show endsNumber '.' = false by decide]
    · simp [show endsNumber '(' = true by decide]
    · simp [show endsNumber ')' = true by decide]
    · simp [show endsNumber '%' = true by decide]
    · have hends : endsNumber c := by
        have hglyph := (Bool.and_eq_true_iff.1 hc).1
        simp [endsNumber, hglyph]
      simp [hends, after_of_isInfix hc]

/-! ### The place of an operator -/

/-- Where an operator can stand: every operator behind an operand, a sign at the start. -/
theorem operatorPlace_typed (h : Typed t) :
    Typed (operatorPlace {} t) ∧
      (ending (operatorPlace {} t) = .start ∨ (ending (operatorPlace {} t)).isOperand) := by
  rcases h.nil_or_concat with rfl | ⟨u, c, rfl, hu, hadmits⟩
  · exact ⟨typed_nil, Or.inl rfl⟩
  · unfold operatorPlace
    rw [List.getLast?_concat, Option.any_some, List.dropLast_concat]
    split
    · rename_i hc
      dsimp only
      rw [hu.any_isGlyph]
      -- behind a percent sign there is a multiplication, and both give way
      rcases cases_of_admits_glyph hadmits (by simpa using hc) with he | he | he
      · rw [he]
        exact ⟨hu, Or.inl he⟩
      · have hne : (ending u == .operator || ending u == .percent) = false := by
          revert he
          cases ending u <;> decide
        rw [hne]
        exact ⟨hu, Or.inr he⟩
      · rcases hu.nil_or_concat with rfl | ⟨v, d, rfl, hv, hd⟩
        · cases he
        · have hlast := mem_lastChars_after hd
          rw [← ending_concat, he] at hlast
          obtain rfl := List.mem_singleton.1 hlast
          rw [he, List.dropLast_concat]
          exact ⟨hv, Or.inr (admits_percent.1 hd)⟩
    · rename_i hc
      obtain ⟨hglyph, hpoint⟩ : Operator.isGlyph c = false ∧ c ≠ '.' := by simpa using hc
      refine ⟨h, ?_⟩
      rw [ending_concat]
      rcases cases_of_admits hadmits with hc | rfl | rfl | rfl | rfl | hc
      · rw [after_digit hc]
        split
        · exact Or.inr rfl
        · exact Or.inr rfl
      · exact absurd rfl hpoint
      · exact Or.inl rfl
      · exact Or.inr rfl
      · cases hglyph
      · rw [isInfix, hglyph] at hc
        cases hc

/-! ### Numbers -/

theorem typedFrom_digits {e : Ending} {count : Nat} (he : e ≠ .close ∧ e ≠ .percent)
    (hu : ∀ c ∈ u, c.isDigit) : TypedFrom e count u := by
  induction u generalizing e count with
  | nil => trivial
  | cons c u ih =>
    obtain ⟨hc, hu⟩ := List.forall_mem_cons.1 hu
    refine ⟨(admits_digit hc).2 he, ?_, ih ?_ hu⟩
    · rintro rfl
      exact absurd hc (by decide)
    · rw [after_digit hc]
      split <;> decide

theorem foldl_after_integer (hu : ∀ c ∈ u, c.isDigit) : u.foldl after .integer = .integer := by
  induction u with
  | nil => rfl
  | cons c u ih =>
    obtain ⟨hc, hu⟩ := List.forall_mem_cons.1 hu
    rw [List.foldl_cons, after_digit hc]
    exact ih hu

/-- The digits of a number that stands where an operand is missing. -/
theorem typed_integer (h : Typed t) (hawaits : (ending t).awaits) (hu : ∀ c ∈ u, c.isDigit)
    (hne : u ≠ []) : Typed (t ++ u) ∧ ending (t ++ u) = .integer := by
  have hends : (ending t ≠ .close ∧ ending t ≠ .percent) ∧
      ¬ (ending t = .point ∨ ending t = .fraction) := by
    revert hawaits
    cases ending t <;> decide
  refine ⟨typedFrom_append.2 ⟨h, typedFrom_digits hends.1 hu⟩, ?_⟩
  obtain ⟨c, u, rfl⟩ := List.exists_cons_of_ne_nil hne
  obtain ⟨hc, hu⟩ := List.forall_mem_cons.1 hu
  rw [ending, List.foldl_append, List.foldl_cons, after_digit hc]
  exact (congrArg (u.foldl after) (if_neg hends.2)).trans (foldl_after_integer hu)

theorem typed_number (h : Typed t) (hawaits : (ending t).awaits) (hu : IsNumber u) :
    Typed (t ++ u) := by
  obtain ⟨integer, fraction, hne, hinteger, hfraction, rfl | rfl⟩ := hu
  · exact (typed_integer h hawaits hinteger hne).1
  · obtain ⟨htyped, hending⟩ := typed_integer h hawaits hinteger hne
    have hpoint : Typed (t ++ integer ++ ['.']) :=
      htyped.concat (admits_point.2 hending) (by decide)
    have hends : ending (t ++ integer ++ ['.']) = .point := ending_concat _ '.'
    have hclose : ending (t ++ integer ++ ['.']) ≠ .close ∧
        ending (t ++ integer ++ ['.']) ≠ .percent := by
      rw [hends]
      decide
    have hall := typedFrom_append.2 ⟨hpoint, typedFrom_digits hclose hfraction⟩
    simpa [Typed] using hall

theorem typed_zero_point (h : Typed t) (hawaits : (ending t).awaits) :
    Typed (t ++ ['0'] ++ ['.']) := by
  have hnumber : IsNumber ['0', '.'] :=
    ⟨['0'], [], List.cons_ne_nil _ _, List.forall_mem_singleton.2 rfl, (fun _ hc => nomatch hc),
      Or.inr rfl⟩
  simpa using typed_number h hawaits hnumber

/-! ### The keys -/

variable {st : State}

/-- Whether the formula is a typed text, or the error marker stands in its place. -/
def FormulaTyped (st : State) : Prop := st.mark ≠ .afterError → Typed st.formula

theorem typed_withoutError (h : st.FormulaTyped) (ht : Typed t) :
    Typed (st.withoutError t).formula := by
  unfold withoutError
  split
  · exact ht
  · rename_i herror
    exact h (by simpa [isError] using herror)

/-- Multiplying what a class of characters ends leaves a text behind which an operand that is not
multiplied with it can stand. -/
theorem typed_multiplyAfter (p : Char → Bool) (q : Ending → Bool)
    (hp : ∀ e : Ending, e.lastChars.all (p · == q e))
    (hq : q .start = false ∧ q .operator = false ∧ ∀ e, q e → e.admits '×')
    (h : Typed st.formula) :
    Typed (st.multiplyAfter p).formula ∧ q (ending (st.multiplyAfter p).formula) = false := by
  obtain ⟨hstart, hoperator, htimes⟩ := hq
  unfold multiplyAfter
  rw [h.any_getLast?_eq hp hstart]
  split
  · rename_i hq
    exact ⟨h.concat (htimes _ hq) (by decide), (congrArg q (ending_concat _ _)).trans hoperator⟩
  · rename_i hq
    exact ⟨h, by simpa using hq⟩

theorem typed_pressDigitBare (h : st.FormulaTyped) (d : Fin 10) :
    Typed (st.pressDigitBare d).formula := by
  have hclear := typed_withoutError h typed_nil
  unfold pressDigitBare
  dsimp only
  split
  · exact hclear
  · have hnonzero := withoutZero_induction (motive := Typed) hclear typed_nil
    obtain ⟨htyped, hends⟩ := typed_multiplyAfter endsGroup
      (fun e => e == .close || e == .percent) (fun e => by cases e <;> decide)
      ⟨rfl, rfl, fun e => by cases e <;> decide⟩ hnonzero
    have hdigit : (Nat.digitChar d).isDigit := Nat.isDigit_digitChar.trans (decide_eq_true d.isLt)
    have hne : Nat.digitChar d ≠ ')' := by
      intro e
      rw [e] at hdigit
      cases hdigit
    refine Typed.concat htyped ((admits_digit hdigit).2 ?_) hne
    simpa using hends

theorem typed_pressPoint (h : st.FormulaTyped) : Typed (st.pressPoint {}).formula := by
  have hclear := typed_withoutError h typed_nil
  unfold pressPoint
  dsimp only
  generalize st.withoutError [] = st' at hclear
  split
  · exact hclear
  · rename_i hcontains
    have hpoint : ¬ (ending st'.formula = .point ∨ ending st'.formula = .fraction) := fun e =>
      hcontains (List.contains_iff_mem.2 ((point_mem_lastNumber_iff hclear).2 e))
    have hdigit := hclear.any_isDigit
    have hgroup := hclear.any_endsGroup
    cases hlast : st'.formula.getLast? with
    | none =>
      have hnil : st'.formula = [] := List.getLast?_eq_none_iff.1 hlast
      exact typed_zero_point hclear (by rw [hnil]; rfl)
    | some c =>
      rw [hlast, Option.any_some] at hdigit hgroup
      dsimp only
      rw [hdigit, hgroup]
      split
      · rename_i hnumber
        have hinteger : ending st'.formula = .integer := by
          revert hnumber hpoint
          cases ending st'.formula <;> decide
        exact Typed.concat hclear (admits_point.2 hinteger) (by decide)
      · rename_i hnumber
        split
        · rename_i hends
          have htimes : Typed (st'.formula ++ ['×']) := by
            refine hclear.concat ?_ (by decide)
            revert hends
            cases ending st'.formula <;> decide
          have hzero := typed_zero_point htimes (by rw [ending_concat]; rfl)
          rw [List.append_assoc st'.formula] at hzero
          exact hzero
        · rename_i hends
          refine typed_zero_point hclear ?_
          revert hpoint hnumber hends
          cases ending st'.formula <;> decide

theorem typed_pressOpen (h : st.FormulaTyped) : Typed st.pressOpen.formula := by
  have hclear := typed_withoutError h typed_nil
  have hnonzero := withoutZero_induction (motive := Typed) hclear typed_nil
  obtain ⟨htyped, hends⟩ := typed_multiplyAfter (fun c => c.isDigit || endsGroup c)
    (fun e => e.isOperand || e == .percent) (fun e => by cases e <;> decide)
    ⟨rfl, rfl, fun e => by cases e <;> decide⟩ hnonzero
  refine Typed.concat htyped (admits_open.2 ?_) (by decide)
  revert hends
  cases ending _ <;> decide

theorem typed_pressClose (h : st.FormulaTyped) (hst : st.Consistent) :
    st.pressClose.FormulaTyped := by
  unfold pressClose
  split
  · exact h
  · rename_i hcount
    intro _
    have hmark : st.mark ≠ .afterError := fun e => hcount (hst.openCount_of_error e)
    have hopen : 0 < unmatched st.formula := by
      have hcounted : st.openCount = unmatched st.formula := hst.counted
      omega
    exact typed_concat.2 ⟨h hmark, admits_close, fun _ => hopen⟩

theorem typed_pressOperator (h : st.FormulaTyped) (op : Operator) :
    Typed (st.pressOperator {} op).formula := by
  have hclear := typed_withoutError h (typed_singleton (c := '0') (by decide) (by decide))
  obtain ⟨hplace, hending⟩ := operatorPlace_typed hclear
  unfold pressOperator
  dsimp only [shown, marked]
  rw [hplace.all_open]
  split
  · exact hplace
  · rename_i hleading
    refine hplace.concat ?_ (by cases op <;> decide)
    rcases hending with he | he
    · obtain rfl : op = .minus := by simpa [he] using hleading
      rw [he]
      decide
    · exact admits_glyph_of_isOperand he op

theorem typed_pressNegate (h : st.FormulaTyped) : st.pressNegate.FormulaTyped := by
  unfold pressNegate
  split
  · exact fun _ => typed_singleton (by decide) (by decide)
  · exact h

theorem typed_pressEqualsBare (h : st.FormulaTyped) : st.pressEqualsBare.1.FormulaTyped := by
  unfold pressEqualsBare
  dsimp only
  split
  · exact h
  · split
    · exact fun hmark => absurd rfl hmark
    · split
      · rename_i value _ hfinite
        obtain ⟨t, ht⟩ := exists_doubleText?_eq_some hfinite
        intro _
        rw [ht]
        obtain ⟨u, rfl | rfl, hu⟩ := exists_isNumber_of_doubleText?_eq_some ht
        · exact typed_number typed_nil rfl hu
        · exact typed_number (typed_singleton (c := '-') (by decide) (by decide)) rfl hu
      · exact fun hmark => absurd rfl hmark

theorem typed_pressBackspaceBare (h : st.FormulaTyped) : Typed st.pressBackspaceBare.formula := by
  unfold pressBackspaceBare
  split
  · exact typed_nil
  · rename_i herror
    have htyped := h (by simpa [isError] using herror)
    dsimp only
    split
    · exact typed_singleton (by decide) (by decide)
    · exact htyped.dropLast

/-- Every key leaves the formula typed. -/
theorem formulaTyped_pressBare (h : st.FormulaTyped) (hst : st.Consistent) (key : Key) :
    (st.pressBare key).1.FormulaTyped := by
  cases key with
  | digit d => exact fun _ => typed_pressDigitBare h d
  | point => exact fun _ => typed_pressPoint h
  | «open» => exact fun _ => typed_pressOpen h
  | close => exact typed_pressClose h hst
  | operator op => exact fun _ => typed_pressOperator h op
  | negate => exact typed_pressNegate h
  | equals => exact typed_pressEqualsBare h
  | backspace => exact fun _ => typed_pressBackspaceBare h
  | reset => exact fun _ => typed_nil
  | load number => exact h

/-! ### Runs -/

variable {s : Separators}

theorem Consistent.bare (h : st.Consistent) (hs : s.Accepted) : (st.bare s).Consistent := by
  have hmarker : s.bare errorMarker = errorMarker :=
    hs.bare_eq_self fun c hc => (Separators.errorMarker_isReserved c hc).1
  constructor
  · exact h.counted.trans (Separators.unmatched_bare hs.sparesParens _).symm
  · intro hmark
    have hformula := h.formula_of_error hmark
    rw [State.bare, hformula, hmarker]

/-- Without loading, the bare formula stays typed in a run. -/
theorem formulaTyped_pressAll (hs : s.Accepted) (h : (st.bare s).FormulaTyped)
    (hst : st.Consistent) (hneat : s.Neat st.formula) {keys : List Key}
    (hkeys : ∀ key ∈ keys, ∀ t, key ≠ .load t) :
    ((st.pressAll s keys).1.bare s).FormulaTyped := by
  induction keys generalizing st with
  | nil => exact h
  | cons key keys ih =>
    obtain ⟨hkey, hkeys⟩ := List.forall_mem_cons.1 hkeys
    refine ih ?_ (hst.press hs.sparesParens key) (neat_press hs hneat hkey) hkeys
    rw [(bare_press hs hneat hkey).1]
    exact formulaTyped_pressBare h (hst.bare hs) key

end State

end PocketCalculator
