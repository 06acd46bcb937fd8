import PocketCalculator.Decimal.Shortest

/-!
# Written doubles

Every finite double is written, with digits and a point, after a minus sign if it is negative.
-/

namespace PocketCalculator

variable {c : Char} {t : Text} {value : Float}

/-! ### Digits and points -/

/-- Whether a character is a digit or the point of a written decimal. -/
def isDigitOrPoint (c : Char) : Bool :=
  c.isDigit || c == '.'

/-- One or more digits, and behind at most one point more digits. -/
def IsNumber (t : Text) : Prop :=
  ∃ integer fraction : Text, integer ≠ [] ∧ (∀ c ∈ integer, c.isDigit) ∧
    (∀ c ∈ fraction, c.isDigit) ∧ (t = integer ∨ t = integer ++ '.' :: fraction)

theorem IsNumber.isDigitOrPoint_of_mem (h : IsNumber t) (hc : c ∈ t) : isDigitOrPoint c := by
  obtain ⟨integer, fraction, -, hinteger, hfraction, rfl | rfl⟩ := h
  · simp [isDigitOrPoint, hinteger c hc]
  · rcases List.mem_append.1 hc with hc | hc
    · simp [isDigitOrPoint, hinteger c hc]
    · rcases List.mem_cons.1 hc with rfl | hc
      · rfl
      · simp [isDigitOrPoint, hfraction c hc]

theorem IsNumber.ne_nil (h : IsNumber t) : t ≠ [] := by
  obtain ⟨integer, fraction, hne, -, -, rfl | rfl⟩ := h
  · exact hne
  · simp

/-- A number starts with a digit. -/
theorem IsNumber.isDigit_of_head? (h : IsNumber t) (hc : t.head? = some c) : c.isDigit := by
  obtain ⟨integer, fraction, hne, hinteger, -, ht⟩ := h
  obtain ⟨d, integer, rfl⟩ := List.exists_cons_of_ne_nil hne
  have hhead : t.head? = some d := by
    rcases ht with rfl | rfl
    · rfl
    · rfl
  obtain rfl : d = c := Option.some.inj (hhead.symm.trans hc)
  exact hinteger d List.mem_cons_self

namespace Decimal

theorem isDigit_of_mem_paddedDigits {x : Decimal} (h : c ∈ x.paddedDigits) : c.isDigit := by
  rcases List.mem_append.1 h with h | h
  · obtain rfl := List.eq_of_mem_replicate h
    decide
  · exact Nat.isDigit_of_mem_toDigits (by decide) (by decide) h

theorem lt_length_paddedDigits (x : Decimal) : x.places < x.paddedDigits.length := by
  rw [paddedDigits, List.length_append, List.length_replicate]
  omega

theorem isNumber_text (x : Decimal) : IsNumber x.text := by
  unfold text
  split
  · refine ⟨_, [], Nat.toDigits_ne_nil, fun c hc => ?_, (fun _ hc => nomatch hc), Or.inl rfl⟩
    exact Nat.isDigit_of_mem_toDigits (by decide) (by decide) hc
  · have hlength := x.lt_length_paddedDigits
    refine ⟨x.paddedDigits.take _, x.paddedDigits.drop _, ?_, fun c hc => ?_, fun c hc => ?_,
      Or.inr rfl⟩
    · rw [← List.length_pos_iff, List.length_take]
      omega
    · exact isDigit_of_mem_paddedDigits (List.mem_of_mem_take hc)
    · exact isDigit_of_mem_paddedDigits (List.mem_of_mem_drop hc)

/-- A decimal ends with a digit. -/
theorem isDigit_of_getLast?_text {x : Decimal} (h : x.text.getLast? = some c) : c.isDigit := by
  unfold text at h
  split at h
  · exact Nat.isDigit_of_mem_toDigits (by decide) (by decide) (List.mem_of_getLast? h)
  · have hlength := x.lt_length_paddedDigits
    have hdrop : x.paddedDigits.drop (x.paddedDigits.length - x.places) ≠ [] := by
      rw [← List.length_pos_iff, List.length_drop]
      omega
    dsimp only at h
    rw [List.getLast?_append, List.getLast?_cons, List.getLast?_eq_some_getLast hdrop] at h
    obtain rfl := Option.some.inj h
    exact isDigit_of_mem_paddedDigits (List.mem_of_mem_drop (List.getLast_mem hdrop))

end Decimal

/-- A double is written as a decimal, after a minus sign if it is negative. -/
theorem exists_text_of_doubleText?_eq_some (h : doubleText? value = some t) :
    ∃ x : Decimal, t = x.text ∨ t = '-' :: x.text := by
  unfold doubleText? at h
  dsimp only at h
  split at h
  · cases h
  · split at h
    · cases h
      exact ⟨⟨0, 0⟩, Or.inl rfl⟩
    · have h := Option.some.inj h
      split at h
      · exact ⟨_, Or.inl h.symm⟩
      · exact ⟨_, Or.inr h.symm⟩

theorem exists_isNumber_of_doubleText?_eq_some (h : doubleText? value = some t) :
    ∃ u, (t = u ∨ t = '-' :: u) ∧ IsNumber u := by
  obtain ⟨x, hx⟩ := exists_text_of_doubleText?_eq_some h
  exact ⟨x.text, hx, x.isNumber_text⟩

theorem exists_of_doubleText?_eq_some (h : doubleText? value = some t) :
    ∃ u, (t = u ∨ t = '-' :: u) ∧ ∀ c ∈ u, isDigitOrPoint c := by
  obtain ⟨u, ht, hu⟩ := exists_isNumber_of_doubleText?_eq_some h
  exact ⟨u, ht, fun c hc => hu.isDigitOrPoint_of_mem hc⟩

/-! ### Finite doubles -/

section Finite

open Float.Model

/-- The exponent of a finite number has a zero bit. -/
theorem unpackExponent_ne_of_isFinite {spec : Format} {b : BitVec spec.numBits}
    (h : (UnpackedFloat.unpack spec b).isFinite) : UnpackedFloat.unpackExponent b ≠ -1#_ := by
  intro he
  unfold UnpackedFloat.unpack at h
  dsimp only at h
  rw [if_pos he] at h
  split at h
  · cases h
  · cases h

theorem toNat_unpackExponent (b : BitVec 64) :
    (@UnpackedFloat.unpackExponent Format.binary64 b).toNat =
      b.toNat / Double.hiddenBit % 2048 := by
  unfold UnpackedFloat.unpackExponent
  rw [BitVec.toNat_cast, BitVec.extractLsb_toNat, Nat.shiftRight_eq_div_pow]
  rfl

theorem lt_infinity_of_isFinite (h : value.isFinite) :
    value.toBits.toNat % Double.signBit < Double.infinity := by
  have hne : value.toBits.toNat / Double.hiddenBit % 2048 ≠ 2047 := by
    intro he
    refine @unpackExponent_ne_of_isFinite Format.binary64 value.toBits.toBitVec h ?_
    apply BitVec.eq_of_toNat_eq
    rw [toNat_unpackExponent]
    exact he
  unfold Double.hiddenBit at hne
  unfold Double.signBit Double.infinity
  omega

theorem exists_doubleText?_eq_some (h : value.isFinite) : ∃ t, doubleText? value = some t := by
  have hlt := lt_infinity_of_isFinite h
  unfold doubleText?
  dsimp only
  rw [if_neg (by omega)]
  split
  · exact ⟨_, rfl⟩
  · exact ⟨_, rfl⟩

end Finite

end PocketCalculator
