import PocketCalculator.Proofs.Decimal.ReadBack
import PocketCalculator.Proofs.Decimal.Signed
import PocketCalculator.Proofs.Expression.Evaluation
import PocketCalculator.Proofs.Formula.Pending
import PocketCalculator.Proofs.Number.Bare

/-!
# The value of a readout

A readout stands for the decimal text of its value, and that text is an expression with this value
(`evaluate_plain_readout`), whatever the acceptable separators are. Only the sign of a zero is lost.
-/

namespace PocketCalculator

/-! ### Literals as expressions -/

namespace Expression

variable {n : Nat} {l : Literal} {value : Float}

/-- A factor alone is an expression with the same value. -/
theorem evaluateWithin_factor {x : Factor n} (hs : (Phrase.factor n).Settled x [])
    (hv : (Phrase.factor n).value? x = some value) :
    evaluateWithin n ((Phrase.factor n).text x) = .ok value := by
  let d : Derivation n := ⟨⟨⟨x, []⟩, []⟩, ⟨[], nofun⟩⟩
  have htext : (Phrase.factor n).sum.text d.tree ++ (d.last : Text) = (Phrase.factor n).text x := by
    simp [d, Phrase.sum, Phrase.term, Phrase.operands, Phrase.moreText]
  have hvalue : d.value? = some value := by
    simp [d, Derivation.value?, Phrase.sum, Phrase.term, Phrase.operands, Phrase.moreValue?, hv]
  exact evaluateWithin_eq_ok_iff.2 ⟨d, ⟨htext, ⟨hs, trivial⟩, trivial⟩, hvalue⟩

/-- A literal alone. -/
def literalFactor (n : Nat) (l : Literal) : Factor (n + 1) :=
  Level.plain ⟨[], nofun⟩ (.literal l) none none

theorem text_literalFactor (n : Nat) (l : Literal) :
    (Phrase.factor (n + 1)).text (literalFactor n l) = l.run := by
  simp [literalFactor, Phrase.factor, Phrase.level, Phrase.atom, Phrase.exponentText,
    Phrase.percentText]

theorem settled_literalFactor (n : Nat) (l : Literal) :
    (Phrase.factor (n + 1)).Settled (literalFactor n l) [] := by
  simp [literalFactor, Phrase.factor, Phrase.level, Phrase.atom, Phrase.exponentText,
    Phrase.percentText, Phrase.ExponentSettled, Phrase.PercentSettled, next?]

theorem value?_literalFactor (n : Nat) (l : Literal) :
    (Phrase.factor (n + 1)).value? (literalFactor n l) = l.decimal.toFloat? := by
  cases h : l.decimal.toFloat? <;>
    simp [literalFactor, Phrase.factor, Phrase.level, Phrase.atom, Phrase.raised?,
      Phrase.hundredth, h]

theorem evaluate_literal (h : l.decimal.toFloat? = some value) : evaluate l.run = .ok value := by
  have hvalue := (value?_literalFactor 255 l).trans h
  rw [← text_literalFactor 255 l]
  exact evaluateWithin_factor (settled_literalFactor 255 l) hvalue

theorem evaluate_minus_literal (h : l.decimal.toFloat? = some value) :
    evaluate ('-' :: l.run) = .ok (-value) := by
  let x : Factor 256 := Level.negative ⟨[], nofun⟩ (literalFactor 254 l)
  have hvalue : (Phrase.factor 256).value? x = some (-value) :=
    congrArg (Option.map (- ·)) ((value?_literalFactor 254 l).trans h)
  have htext : (Phrase.factor 256).text x = '-' :: l.run :=
    congrArg ('-' :: ·) (text_literalFactor 254 l)
  rw [← htext]
  exact evaluateWithin_factor (settled_literalFactor 254 l) hvalue

end Expression

/-! ### Decimal texts as expressions -/

section DecimalText

variable {x : Decimal} {value : Float} {t : Text}

theorem evaluate_text (h : x.toFloat? = some value) :
    evaluate x.text = .ok value ∧ evaluate ('-' :: x.text) = .ok (-value) := by
  obtain ⟨l, hrun, rfl⟩ := Expression.exists_literal x.ofLiteral?_text
  rw [← hrun]
  exact ⟨Expression.evaluate_literal h, Expression.evaluate_minus_literal h⟩

/-- A double whose sign is not shown if it is zero. -/
def shownValue (value : Float) : Float :=
  if value = -0 then 0 else value

theorem shownValue_zero : shownValue 0 = 0 := by decide

theorem shownValue_minus_zero : shownValue (-0) = 0 := by decide

theorem isFinite_shownValue (h : value.isFinite) : (shownValue value).isFinite := by
  unfold shownValue
  split
  · decide
  · exact h

/-- Only zeros compare equal without being the same. -/
theorem shownValue_beq (h : value.isFinite) : shownValue value == value := by
  unfold shownValue
  split
  · rename_i hzero
    rw [hzero]
    decide
  · rw [Float.beq_self_iff]
    rintro rfl
    exact absurd h (by decide)

theorem shownValue_of_ne (h : value.toBits.toNat % Double.signBit ≠ 0) :
    shownValue value = value := by
  refine if_neg ?_
  rintro rfl
  exact h (by decide)

theorem doubleText?_shownValue (value : Float) :
    doubleText? (shownValue value) = doubleText? value := by
  unfold shownValue
  split
  · rename_i hzero
    rw [hzero]
    decide
  · rfl

/-- The text of a double has its value. -/
theorem evaluate_doubleText (hfinite : value.isFinite) (ht : doubleText? value = some t) :
    evaluate t = .ok (shownValue value) := by
  have hlt := lt_infinity_of_isFinite hfinite
  unfold doubleText? at ht
  dsimp only at ht
  rw [if_neg (by omega)] at ht
  split at ht
  · rename_i hzero
    obtain rfl := Option.some.inj ht
    have hshown : shownValue value = 0 := by
      rcases Double.eq_zero_or_of_magnitude_eq_zero hzero with rfl | rfl
      · exact shownValue_zero
      · exact shownValue_minus_zero
    rw [hshown]
    exact (evaluate_text (x := ⟨0, 0⟩) (by decide)).1
  · rename_i hzero
    obtain rfl := Option.some.inj ht
    obtain ⟨hpositive, hnegative⟩ := evaluate_text (Decimal.toFloat?_shortest hlt)
    rw [shownValue_of_ne hzero]
    split
    · rename_i hsign
      rw [hpositive, Double.ofBits_magnitude hsign]
    · rename_i hsign
      rw [hnegative, Double.neg_ofBits_magnitude hfinite (by omega)]

end DecimalText

namespace Separators

variable {s : Separators} {value : Float} {t : Text}

/-- A readout stands for the decimal text of its value. -/
theorem Accepted.plain_readout (hs : s.Accepted) (ht : doubleText? value = some t) :
    s.plain (s.readout value) = t := by
  have hsame : ∀ c ∈ t, plainChar {} c = c := by
    obtain ⟨u, htext, hchars⟩ := exists_of_doubleText?_eq_some ht
    have hu : ∀ c ∈ u, plainChar {} c = c := fun c hc => plainChar_of_isLiteralChar (hchars c hc)
    rcases htext with rfl | rfl
    · exact hu
    · exact List.forall_mem_cons.2 ⟨by decide, hu⟩
  rw [plain_eq_map_bare, hs.bare_readout ht]
  exact (List.map_congr_left hsame).trans (List.map_id t)

theorem Accepted.evaluate_plain_readout (hs : s.Accepted) (h : value.isFinite) :
    evaluate (s.plain (s.readout value)) = .ok (shownValue value) := by
  obtain ⟨t, ht⟩ := exists_doubleText?_eq_some h
  rw [hs.plain_readout ht]
  exact evaluate_doubleText h ht

/-- The sign of a zero is not shown. -/
theorem readout_shownValue (s : Separators) (value : Float) :
    s.readout (shownValue value) = s.readout value := by
  rw [readout, readout, digits, digits, doubleText?_shownValue]

end Separators

end PocketCalculator
