import PocketCalculator.Proofs.Editor.Grouped
import PocketCalculator.Proofs.Number.Bare

/-!
# The characters of the formula

The keys put digits, the decimal separator and reserved characters into the formula, and grouping
adds its separator. So no character of a formula means something else in another locale, unless a
text was loaded.
-/

namespace PocketCalculator

namespace State

open Separators (known_nil known_singleton known_decimal)

variable {s : Separators} {st : State} {t : Text}

/-! ### Known characters -/

theorem known_glyph (s : Separators) (op : Operator) : s.Known [op.glyph] :=
  known_singleton (isReserved_glyph op)

theorem known_zero (s : Separators) : s.Known ['0'] :=
  known_singleton (Separators.isReserved_of_isDigit (by decide))

theorem known_pressDigit (h : s.Known st.formula) (d : Fin 10) :
    s.Known (st.pressDigit s d).formula := by
  have hclear := withoutError_induction (motive := s.Known) h (known_nil s)
  unfold pressDigit
  dsimp only
  split
  · exact hclear
  · have hdigit : s.Known [Nat.digitChar d] := known_singleton (isReserved_digitChar d)
    have hnonzero := withoutZero_induction hclear (known_nil s)
    have htimes := hnonzero.append (known_glyph s .times)
    have hbefore := multiplyAfter_induction hnonzero htimes endsGroup
    exact (hbefore.append hdigit).regroup

theorem known_pressPoint (h : s.Known st.formula) : s.Known (st.pressPoint s).formula := by
  have hclear := withoutError_induction (motive := s.Known) h (known_nil s)
  have htimes : s.Known [Operator.times.glyph, '0'] := (known_glyph s .times).append (known_zero s)
  unfold pressPoint
  dsimp only
  split
  · exact hclear
  · split
    · split
      · exact hclear.append (known_decimal s)
      · split
        · exact (hclear.append htimes).append (known_decimal s)
        · exact (hclear.append (known_zero s)).append (known_decimal s)
    · exact (hclear.append (known_zero s)).append (known_decimal s)

theorem known_pressOpen (h : s.Known st.formula) : s.Known st.pressOpen.formula := by
  have hclear := withoutError_induction (motive := s.Known) h (known_nil s)
  have hnonzero := withoutZero_induction hclear (known_nil s)
  have htimes := hnonzero.append (known_glyph s .times)
  have hopen : s.Known ['('] := known_singleton (Separators.isReserved_of_mem (by decide))
  exact (multiplyAfter_induction (motive := s.Known) hnonzero htimes _).append hopen

theorem known_pressClose (h : s.Known st.formula) : s.Known st.pressClose.formula := by
  unfold pressClose
  split
  · exact h
  · exact h.append (known_singleton (Separators.isReserved_of_mem (by decide)))

theorem known_pressOperator (h : s.Known st.formula) (op : Operator) :
    s.Known (st.pressOperator s op).formula := by
  have hplace : s.Known (operatorPlace s (st.withoutError ['0']).formula) :=
    operatorPlace_induction (withoutError_induction h (known_zero s)) fun _ _ _ hu => hu.of_append
  unfold pressOperator
  dsimp only [shown, marked]
  split
  · exact hplace
  · exact hplace.append (known_glyph s op)

theorem known_pressNegate (h : s.Known st.formula) : s.Known st.pressNegate.formula := by
  unfold pressNegate
  split
  · exact known_glyph s .minus
  · exact h

theorem known_pressEquals (h : s.Known st.formula) : s.Known (st.pressEquals s).1.formula := by
  have hmarker : s.Known errorMarker :=
    Separators.known_of_isReserved fun c hc => (Separators.errorMarker_isReserved c hc).1
  unfold pressEquals
  dsimp only
  split
  · exact h
  · split
    · exact hmarker
    · split
      · exact s.known_readout _
      · exact hmarker

theorem known_pressBackspace (h : s.Known st.formula) :
    s.Known (st.pressBackspace s).formula := by
  unfold pressBackspace
  split
  · exact known_nil s
  · dsimp only
    split
    · exact (known_zero s).regroup
    · exact h.dropLast.regroup

theorem known_press {key : Key} (h : s.Known st.formula) (hkey : ∀ t, key ≠ .load t) :
    s.Known (st.press s key).1.formula := by
  cases key with
  | digit d => exact known_pressDigit h d
  | point => exact known_pressPoint h
  | «open» => exact known_pressOpen h
  | close => exact known_pressClose h
  | operator op => exact known_pressOperator h op
  | negate => exact known_pressNegate h
  | equals => exact known_pressEquals h
  | backspace => exact known_pressBackspace h
  | reset => exact known_nil s
  | load number => exact absurd rfl (hkey number)

/-! ### Neat formulas -/

theorem neat_operatorPlace (hs : s.Accepted) (h : s.Neat t) : s.Neat (operatorPlace s t) :=
  operatorPlace_induction h fun _ _ hc hu =>
    ⟨hu.grouped.of_concat hs (hc.elim (loose_of_isGlyph hs) Or.inr), hu.known.of_append⟩

/-- Every key but loading leaves a neat formula neat. -/
theorem neat_press (hs : s.Accepted) {key : Key} (h : s.Neat st.formula)
    (hkey : ∀ t, key ≠ .load t) : s.Neat (st.press s key).1.formula :=
  ⟨grouped_press hs h.grouped key, known_press h.known hkey⟩

theorem neat_pressAll (hs : s.Accepted) {keys : List Key} (h : s.Neat st.formula)
    (hkeys : ∀ key ∈ keys, ∀ t, key ≠ .load t) : s.Neat (st.pressAll s keys).1.formula := by
  induction keys generalizing st with
  | nil => exact h
  | cons key keys ih =>
    obtain ⟨hkey, hkeys⟩ := List.forall_mem_cons.1 hkeys
    exact ih (neat_press hs h hkey) hkeys

end State

end PocketCalculator
