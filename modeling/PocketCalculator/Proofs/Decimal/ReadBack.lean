import PocketCalculator.Proofs.Decimal.Written
import PocketCalculator.Proofs.Text.Runs

/-!
# Decimals that are read back

The text of a decimal fraction is a literal of the same fraction (`ofLiteral?_text`), and the
shortest decimal of a double is rounded to the bits of that double (`nearestBits_shortest`): it is
one of the candidates, which are taken only if they are, or else the exact decimal, where nothing
has to be rounded.
-/

namespace PocketCalculator

/-! ### Digits as literals -/

namespace Decimal

variable {integer fraction : Text}

theorem ofLiteral?_digits (h : ∀ c ∈ integer, c.isDigit) (hne : integer ≠ []) :
    ofLiteral? integer = some (ofDigits integer []) := by
  have htake := takeWhile_run h (stopsAt_nil (p := Char.isDigit))
  have hdrop := dropWhile_run h (stopsAt_nil (p := Char.isDigit))
  rw [List.append_nil] at htake hdrop
  simp [ofLiteral?, htake, hdrop, hne]

theorem ofLiteral?_point (hinteger : ∀ c ∈ integer, c.isDigit)
    (hfraction : ∀ c ∈ fraction, c.isDigit) (hne : integer ≠ []) :
    ofLiteral? (integer ++ '.' :: fraction) = some (ofDigits integer fraction) := by
  have hstop : StopsAt Char.isDigit ('.' :: fraction) := stopsAt_cons.2 (by decide)
  have htake := takeWhile_run hinteger hstop
  have hdrop := dropWhile_run hinteger hstop
  have hall : fraction.all Char.isDigit := List.all_eq_true.2 hfraction
  unfold ofLiteral?
  dsimp only
  rw [htake, hdrop]
  exact if_pos ⟨rfl, hall, by simp [hne]⟩

/-- Zeros before the digits of a number change nothing. -/
theorem ofDigitChars_paddedDigits (x : Decimal) :
    Nat.ofDigitChars 10 x.paddedDigits 0 = x.coefficient := by
  rw [paddedDigits, Nat.ofDigitChars_append, Nat.ofDigitChars_replicate_zero, Nat.mul_zero,
    Nat.ofDigitChars_ten_toDigits]

/-- The text of a fraction spells it. -/
theorem ofLiteral?_text (x : Decimal) : ofLiteral? x.text = some x := by
  unfold text
  split
  · rename_i hplaces
    have hdigits : ∀ c ∈ Nat.toDigits 10 x.coefficient, c.isDigit := fun c hc =>
      Nat.isDigit_of_mem_toDigits (by decide) (by decide) hc
    rw [ofLiteral?_digits hdigits Nat.toDigits_ne_nil, ofDigits, List.append_nil,
      Nat.ofDigitChars_ten_toDigits, List.length_nil, ← hplaces]
  · have hlength := x.lt_length_paddedDigits
    have htake : x.paddedDigits.take (x.paddedDigits.length - x.places) ≠ [] := by
      rw [← List.length_pos_iff, List.length_take]
      omega
    have hdrop : (x.paddedDigits.drop (x.paddedDigits.length - x.places)).length = x.places := by
      rw [List.length_drop]
      omega
    dsimp only
    rw [ofLiteral?_point (fun c hc => isDigit_of_mem_paddedDigits (List.mem_of_mem_take hc))
      (fun c hc => isDigit_of_mem_paddedDigits (List.mem_of_mem_drop hc)) htake, ofDigits,
      List.take_append_drop, ofDigitChars_paddedDigits, hdrop]

end Decimal

/-! ### Rounding a double to itself -/

theorem roundHalfEven_mul {n den : Nat} (hden : 0 < den) : roundHalfEven (n * den) den = n := by
  unfold roundHalfEven
  dsimp only
  rw [Nat.mul_mod_left, if_pos (by omega), Nat.mul_div_cancel n hden]

namespace Double

/-- A number of units that fits the bits of a fraction, with a power of two, is not rounded. -/
theorem nearest_shiftLeft {m den : Nat} (k : Nat) (hden : 0 < den) (hlow : hiddenBit ≤ m)
    (hhigh : m < 2 * hiddenBit) : nearest ((m <<< k) * den) den = k * hiddenBit + m := by
  have hlog : (m <<< k).log2 = 52 + k := by
    have hpos : 0 < 2 ^ k := Nat.two_pow_pos k
    have hm : m ≠ 0 := by
      rintro rfl
      exact absurd hlow (by decide)
    rw [Nat.shiftLeft_eq, Nat.log2_eq_iff (Nat.mul_ne_zero hm hpos.ne'), Nat.add_right_comm,
      Nat.pow_add, Nat.pow_add]
    exact ⟨Nat.mul_le_mul_right _ hlow, Nat.mul_lt_mul_of_pos_right hhigh hpos⟩
  have hdropped : 52 + k + 1 - 53 = k := by omega
  unfold nearest
  dsimp only
  rw [Nat.mul_div_cancel _ hden, hlog, hdropped, Nat.shiftLeft_eq, Nat.shiftLeft_eq,
    Nat.mul_right_comm, Nat.mul_assoc m den, roundHalfEven_mul]
  exact Nat.mul_pos hden (Nat.two_pow_pos k)

theorem nearest_of_lt {m den : Nat} (hden : 0 < den) (h : m < hiddenBit) :
    nearest (m * den) den = m := by
  have hlog : m.log2 + 1 - 53 = 0 := by
    by_cases hm : m = 0
    · subst hm
      rfl
    · have hlt := (Nat.log2_lt hm).2 (show m < 2 ^ 52 from h)
      omega
  unfold nearest
  dsimp only
  rw [Nat.mul_div_cancel _ hden, hlog, Nat.zero_mul, Nat.zero_add, Nat.shiftLeft_zero,
    roundHalfEven_mul hden]

/-- The double nearest to the magnitude of a double is that double. -/
theorem nearest_units {den : Nat} (hden : 0 < den) (bits : Nat) :
    nearest (units bits * den) den = bits := by
  have hbits := Nat.div_add_mod bits hiddenBit
  have hfraction : bits % hiddenBit < hiddenBit := Nat.mod_lt _ (by decide)
  unfold units
  dsimp only
  split
  · rename_i hexponent
    rw [nearest_of_lt hden hfraction]
    rw [hexponent] at hbits
    omega
  · rename_i hexponent
    rw [nearest_shiftLeft _ hden (by omega) (by omega)]
    -- the leading bit counts as one more in the exponent
    obtain ⟨k, hk⟩ := Nat.exists_eq_succ_of_ne_zero hexponent
    rw [hk] at hbits ⊢
    rw [Nat.mul_succ, Nat.mul_comm] at hbits
    rw [Nat.succ_sub_one]
    omega

end Double

namespace Decimal

variable {bits : Nat}

theorem tenPow_pos (n : Nat) : 0 < tenPow n := Nat.pow_pos (by decide)

/-- A magnitude is a number of units, with as many decimal places as binary ones. -/
theorem nearest_exact (bits n : Nat) :
    Double.nearest (Double.units bits * Nat.pow 5 n * (1 <<< n)) (tenPow n) = bits := by
  have hten : Nat.pow 5 n * (1 <<< n) = tenPow n := by
    rw [Nat.shiftLeft_eq, Nat.one_mul]
    exact (Nat.mul_pow 5 2 n).symm
  rw [Nat.mul_assoc, hten, Double.nearest_units (tenPow_pos n)]

theorem nearestBits_ofUnits (bits : Nat) : (ofUnits (Double.units bits)).nearestBits = bits := by
  unfold nearestBits ofUnits Double.one
  generalize 1074 = n
  exact nearest_exact bits n

/-- The shortest decimal of a double is rounded to it. -/
theorem nearestBits_shortest (bits : Nat) : (shortest bits).nearestBits = bits := by
  unfold shortest
  dsimp only
  cases hfound : (List.range' 1 17).findSome? fun count =>
      (candidates (Double.units bits) count).find? fun x => x.nearestBits = bits with
  | none => exact nearestBits_ofUnits bits
  | some x =>
    obtain ⟨count, -, hx⟩ := List.exists_of_findSome?_eq_some hfound
    simpa using List.find?_some hx

theorem toFloat?_shortest (h : bits < Double.infinity) :
    (shortest bits).toFloat? = some (Float.ofBits bits.toUInt64) := by
  rw [toFloat?, nearestBits_shortest, if_pos h]

end Decimal

end PocketCalculator
