import Mathlib
import PocketCalculator.Proofs.Decimal.Written

/-!
# The sign of a double

The bits of a double are its sign, its exponent and its fraction, and all but the sign are its
magnitude. Negation changes the sign and nothing else (`neg_ofBits`), so a finite double is the
double of its magnitude or the negative of that (`ofBits_magnitude`, `neg_ofBits_magnitude`).
-/

namespace PocketCalculator

namespace Double

open Float.Model (Format)
open Float.Model.UnpackedFloat

/-! ### The parts of the bits -/

section Parts

variable {spec : Format} {sign : Sign} {exponent : BitVec spec.exponentBits}
  {fraction : BitVec spec.mantissaBitsWithoutImplicit}

theorem neg_unpack : (unpack spec (packComponents spec sign exponent fraction)).neg =
    unpack spec (packComponents spec (-sign) exponent fraction) := by
  simp only [unpack, unpackMantissa_packComponents, unpackExponent_packComponents,
    unpackSign_packComponents, Sign.ofBitVec_toBitVec]
  -- an infinity or no number, a zero or a fraction alone, a fraction with a leading bit
  split
  · split
    · rfl
    · rfl
  · split
    · split
      · rfl
      · rfl
    · rfl

/-- Only the largest exponent can stand for what is no number. -/
theorem valid_packComponents (h : exponent ≠ -1#_) :
    spec.Valid (packComponents spec sign exponent fraction) :=
  ⟨fun he => absurd (unpackExponent_packComponents.symm.trans he) h⟩

end Parts

variable {value : Float}

/-- The magnitude of what has a sign, an exponent and a fraction. -/
theorem toNat_packComponents (sign : Sign) (exponent : BitVec 11) (fraction : BitVec 52) :
    (packComponents Format.binary64 sign exponent fraction).toNat =
        sign.toBitVec.toNat * signBit + (exponent.toNat * hiddenBit + fraction.toNat) ∧
      exponent.toNat * hiddenBit + fraction.toNat < signBit := by
  have hexponent := exponent.isLt
  have hfraction := fraction.isLt
  constructor
  · unfold packComponents
    rw [BitVec.toNat_append, ← Nat.shiftLeft_add_eq_or_of_lt hfraction, BitVec.toNat_append,
      ← Nat.shiftLeft_add_eq_or_of_lt hexponent, Nat.shiftLeft_eq, Nat.shiftLeft_eq]
    unfold signBit hiddenBit
    omega
  · unfold signBit hiddenBit
    omega

theorem exists_packComponents (h : value.isFinite) : ∃ sign exponent fraction,
    exponent ≠ -1#11 ∧
      value.toBits.toBitVec = packComponents Format.binary64 sign exponent fraction :=
  ⟨_, _, _, @unpackExponent_ne_of_isFinite Format.binary64 value.toBits.toBitVec h,
    (@packComponents_unpackSign_unpackExponent_unpackMantissa Format.binary64
      value.toBits.toBitVec).symm⟩

/-! ### The double of a magnitude -/

/-- Negation changes the sign and nothing else. -/
theorem neg_ofBits {bits bits' : UInt64} {sign : Sign} {exponent : BitVec 11}
    {fraction : BitVec 52} (hexponent : exponent ≠ -1#11)
    (hbits : bits.toBitVec = packComponents Format.binary64 sign exponent fraction)
    (hbits' : bits'.toBitVec = packComponents Format.binary64 (-sign) exponent fraction) :
    -Float.ofBits bits = Float.ofBits bits' := by
  apply Float.toBits_inj.1
  apply UInt64.toBitVec_inj.1
  calc
    (-Float.ofBits bits).toBits.toBitVec =
        pack Format.binary64 (unpack Format.binary64
          (pack Format.binary64 (unpack Format.binary64 bits.toBitVec))).neg := rfl
    _ = pack Format.binary64 (unpack Format.binary64 bits'.toBitVec) := by
      rw [hbits, pack_unpack_of_valid (valid_packComponents hexponent), neg_unpack, hbits']
    _ = (Float.ofBits bits').toBits.toBitVec := rfl

theorem ofBits_magnitude (h : value.toBits.toNat < signBit) :
    Float.ofBits (value.toBits.toNat % signBit).toUInt64 = value := by
  rw [Nat.mod_eq_of_lt h]
  simp

theorem neg_ofBits_magnitude (hfinite : value.isFinite) (h : signBit ≤ value.toBits.toNat) :
    -Float.ofBits (value.toBits.toNat % signBit).toUInt64 = value := by
  obtain ⟨sign, exponent, fraction, hexponent, hbits⟩ := exists_packComponents hfinite
  obtain ⟨hnat, hlow⟩ := toNat_packComponents sign exponent fraction
  have hnat : value.toBits.toNat = _ := (congrArg BitVec.toNat hbits).trans hnat
  have hpositive : Sign.positive.toBitVec.toNat = 0 := rfl
  have hnegative : Sign.negative.toBitVec.toNat = 1 := rfl
  cases sign with
  | positive =>
    rw [hpositive] at hnat
    omega
  | negative =>
    rw [hnegative, Nat.one_mul] at hnat
    have hmagnitude : (value.toBits.toNat % signBit).toUInt64.toBitVec =
        packComponents Format.binary64 .positive exponent fraction := by
      apply BitVec.eq_of_toNat_eq
      rw [(toNat_packComponents _ _ _).1, hpositive, Nat.zero_mul, Nat.zero_add, hnat,
        Nat.add_mod_left, Nat.mod_eq_of_lt hlow]
      refine UInt64.toNat_ofNat'.trans (Nat.mod_eq_of_lt ?_)
      unfold signBit at hlow
      omega
    rw [neg_ofBits hexponent hmagnitude hbits, Float.ofBits_toBits]

theorem eq_zero_or_of_magnitude_eq_zero (h : value.toBits.toNat % signBit = 0) :
    value = 0 ∨ value = -0 := by
  have hlt := value.toBits.toNat_lt
  have hbits : value.toBits = 0 ∨ value.toBits = 0x8000000000000000 := by
    rw [← UInt64.toNat_inj, ← UInt64.toNat_inj]
    unfold signBit at h
    simp only [UInt64.toNat_ofNat]
    omega
  rw [← Float.toBits_inj, ← Float.toBits_inj]
  exact hbits

end Double

end PocketCalculator
