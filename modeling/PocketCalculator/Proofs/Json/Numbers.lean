import PocketCalculator.Json.Token
import PocketCalculator.Proofs.Text.Runs

/-!
# JSON numbers

What spells a number, stated without reference to how it is read (`NumberText`): an integer part
without a needless zero, then possibly a fraction, then possibly an exponent. It is what is read as
a number (`isNumber_iff`).
-/

namespace PocketCalculator

namespace Json

variable {t : Text}

/-! ### The grammar -/

/-- Whether a text is the integer part of a number: digits without a needless zero. -/
def WholeText (t : Text) : Prop := isDigits t ∧ (t.head? = some '0' → t = ['0'])

/-- Whether a text is the fraction of a number, which may be left out. -/
def FractionText (t : Text) : Prop := t = [] ∨ ∃ digits, isDigits digits ∧ t = '.' :: digits

/-- Whether a text is the exponent of a number, which may be left out. -/
def ExponentText (t : Text) : Prop :=
  t = [] ∨ ∃ letter ∈ ['e', 'E'], ∃ sign ∈ [[], ['-'], ['+']], ∃ digits,
    isDigits digits ∧ t = letter :: (sign ++ digits)

/-- Whether a text is a number. -/
def NumberText (t : Text) : Prop :=
  ∃ sign ∈ [[], ['-']], ∃ whole fraction exponent, WholeText whole ∧ FractionText fraction ∧
    ExponentText exponent ∧ t = sign ++ (whole ++ (fraction ++ exponent))

/-! ### Digits -/

theorem ne_nil_of_isDigits (h : isDigits t) : t ≠ [] := by
  rintro rfl
  cases h

theorem isDigit_of_isDigits (h : isDigits t) : ∀ c ∈ t, c.isDigit := by
  simp only [isDigits, Bool.and_eq_true, List.all_eq_true] at h
  exact h.2

theorem isDigits_of (hne : t ≠ []) (h : ∀ c ∈ t, c.isDigit) : isDigits t := by
  simp only [isDigits, Bool.and_eq_true, Bool.not_eq_true', List.isEmpty_eq_false_iff,
    List.all_eq_true]
  exact ⟨hne, h⟩

theorem isNumberChar_of_isDigits (h : isDigits t) : ∀ c ∈ t, isNumberChar c :=
  fun c hc => by simp [isNumberChar, isDigit_of_isDigits h c hc]

theorem NumberText.isNumberChar (h : NumberText t) : ∀ c ∈ t, isNumberChar c := by
  obtain ⟨sign, hsign, whole, fraction, exponent, ⟨hwhole, -⟩, hfraction, hexponent, rfl⟩ := h
  simp only [List.mem_cons, List.not_mem_nil, or_false] at hsign
  have hsign : ∀ c ∈ sign, Json.isNumberChar c := by
    rcases hsign with rfl | rfl <;> simp [Json.isNumberChar]
  have hfraction : ∀ c ∈ fraction, Json.isNumberChar c := by
    obtain rfl | ⟨digits, hdigits, rfl⟩ := hfraction
    · exact fun _ hc => absurd hc List.not_mem_nil
    · exact List.forall_mem_cons.2 ⟨by decide, isNumberChar_of_isDigits hdigits⟩
  have hexponent : ∀ c ∈ exponent, Json.isNumberChar c := by
    obtain rfl | ⟨letter, hletter, sign, hsign, digits, hdigits, rfl⟩ := hexponent
    · exact fun _ hc => absurd hc List.not_mem_nil
    · simp only [List.mem_cons, List.not_mem_nil, or_false] at hletter hsign
      have hletter : Json.isNumberChar letter := by
        rcases hletter with rfl | rfl <;> decide
      have hsign : ∀ c ∈ sign, Json.isNumberChar c := by
        rcases hsign with rfl | rfl | rfl <;> simp [Json.isNumberChar]
      exact List.forall_mem_cons.2
        ⟨hletter, List.forall_mem_append.2 ⟨hsign, isNumberChar_of_isDigits hdigits⟩⟩
  exact List.forall_mem_append.2 ⟨hsign, List.forall_mem_append.2
    ⟨isNumberChar_of_isDigits hwhole, List.forall_mem_append.2 ⟨hfraction, hexponent⟩⟩⟩

theorem NumberText.ne_nil (h : NumberText t) : t ≠ [] := by
  obtain ⟨sign, -, whole, fraction, exponent, ⟨hwhole, -⟩, -, -, rfl⟩ := h
  simp [ne_nil_of_isDigits hwhole]

/-! ### Reading numbers -/

theorem isExponent_of_exponentText (h : ExponentText t) : isExponent t := by
  obtain rfl | ⟨letter, hletter, sign, hsign, digits, hdigits, rfl⟩ := h
  · rfl
  · have hletter : (letter == 'e' || letter == 'E') = true := by simpa using hletter
    simp only [List.mem_cons, List.not_mem_nil, or_false] at hsign
    unfold isExponent
    dsimp only
    rw [hletter, Bool.true_and]
    rcases hsign with rfl | rfl | rfl
    · rw [List.nil_append]
      -- digits have no sign
      split
      · exact absurd (isDigit_of_isDigits hdigits '+' List.mem_cons_self) (by decide)
      · exact absurd (isDigit_of_isDigits hdigits '-' List.mem_cons_self) (by decide)
      · exact hdigits
    · exact hdigits
    · exact hdigits

theorem stopsAt_exponentText (h : ExponentText t) : StopsAt Char.isDigit t := by
  obtain rfl | ⟨letter, hletter, sign, -, digits, -, rfl⟩ := h
  · exact stopsAt_nil
  · refine stopsAt_cons.2 ?_
    simp only [List.mem_cons, List.not_mem_nil, or_false] at hletter
    rcases hletter with rfl | rfl <;> decide

theorem isFraction_of_texts {fraction exponent : Text} (hfraction : FractionText fraction)
    (hexponent : ExponentText exponent) : isFraction (fraction ++ exponent) := by
  have hend := isExponent_of_exponentText hexponent
  obtain rfl | ⟨digits, hdigits, rfl⟩ := hfraction
  · rw [List.nil_append, isFraction]
    · exact hend
    · rintro rest rfl
      exact absurd hend (by simp [isExponent])
  · have hstops := stopsAt_exponentText hexponent
    have hrun := isDigit_of_isDigits hdigits
    rw [List.cons_append, isFraction, takeWhile_run hrun hstops, dropWhile_run hrun hstops, hend]
    simpa using ne_nil_of_isDigits hdigits

theorem stopsAt_texts {fraction exponent : Text} (hfraction : FractionText fraction)
    (hexponent : ExponentText exponent) : StopsAt Char.isDigit (fraction ++ exponent) := by
  obtain rfl | ⟨digits, -, rfl⟩ := hfraction
  · exact stopsAt_exponentText hexponent
  · exact stopsAt_cons.2 (by decide)

theorem isMagnitude_of_texts {whole rest : Text} (hwhole : WholeText whole)
    (hrest : isFraction rest) (hstops : StopsAt Char.isDigit rest) :
    isMagnitude (whole ++ rest) := by
  obtain ⟨hdigits, hzero⟩ := hwhole
  cases whole with
  | nil => cases hdigits
  | cons c digits =>
    by_cases hc : c = '0'
    · subst hc
      obtain rfl : digits = [] := (List.cons.inj (hzero rfl)).2
      exact hrest
    · obtain ⟨hdigit, hrun⟩ := List.forall_mem_cons.1 (isDigit_of_isDigits hdigits)
      rw [List.cons_append, isMagnitude, hdigit, dropWhile_run hrun hstops, hrest]
      · rfl
      · exact hc

theorem exponentText_of_isExponent (h : isExponent t) : ExponentText t := by
  unfold isExponent at h
  split at h
  · exact Or.inl rfl
  · rename_i letter rest
    rw [Bool.and_eq_true] at h
    obtain ⟨hletter, h⟩ := h
    have hletter : letter ∈ ['e', 'E'] := by simpa using hletter
    refine Or.inr ⟨letter, hletter, ?_⟩
    split at h
    · exact ⟨['+'], by simp, _, h, rfl⟩
    · exact ⟨['-'], by simp, _, h, rfl⟩
    · exact ⟨[], by simp, _, h, rfl⟩

/-- The digits in front, if there are any. -/
theorem isDigits_takeWhile (h : (t.takeWhile Char.isDigit) ≠ []) :
    isDigits (t.takeWhile Char.isDigit) :=
  isDigits_of h fun _ hc => List.mem_takeWhile_imp hc

theorem exists_texts_of_isFraction (h : isFraction t) :
    ∃ fraction exponent, FractionText fraction ∧ ExponentText exponent ∧
      t = fraction ++ exponent := by
  unfold isFraction at h
  split at h
  · rename_i rest
    rw [Bool.and_eq_true, Bool.not_eq_true', List.isEmpty_eq_false_iff] at h
    refine ⟨'.' :: rest.takeWhile Char.isDigit, rest.dropWhile Char.isDigit,
      Or.inr ⟨_, isDigits_takeWhile h.1, rfl⟩, exponentText_of_isExponent h.2, ?_⟩
    rw [List.cons_append, List.takeWhile_append_dropWhile]
  · exact ⟨[], t, Or.inl rfl, exponentText_of_isExponent h, rfl⟩

theorem exists_texts_of_isMagnitude (h : isMagnitude t) :
    ∃ whole rest, WholeText whole ∧ isFraction rest ∧ t = whole ++ rest := by
  unfold isMagnitude at h
  split at h
  · rename_i rest
    exact ⟨['0'], rest, ⟨by decide, fun _ => rfl⟩, h, rfl⟩
  · rename_i c rest hne
    rw [Bool.and_eq_true] at h
    have htake : (c :: rest).takeWhile Char.isDigit = c :: rest.takeWhile Char.isDigit :=
      List.takeWhile_cons_of_pos h.1
    have hdigits : isDigits (c :: rest.takeWhile Char.isDigit) :=
      htake ▸ isDigits_takeWhile (by simp [htake])
    refine ⟨_, rest.dropWhile Char.isDigit, ⟨hdigits, fun hc => ?_⟩, h.2, ?_⟩
    · exact absurd (by simpa using hc) hne
    · rw [List.cons_append, List.takeWhile_append_dropWhile]
  · cases h

/-- What is read as a number is one. -/
theorem isNumber_iff : isNumber t ↔ NumberText t := by
  constructor
  · intro h
    obtain ⟨sign, hsign, magnitude, hmagnitude, rfl⟩ :
        ∃ sign ∈ [[], ['-']], ∃ magnitude, isMagnitude magnitude ∧ t = sign ++ magnitude := by
      unfold isNumber at h
      split at h
      · exact ⟨['-'], by simp, _, h, rfl⟩
      · exact ⟨[], by simp, _, h, rfl⟩
    obtain ⟨whole, rest, hwhole, hrest, rfl⟩ := exists_texts_of_isMagnitude hmagnitude
    obtain ⟨fraction, exponent, hfraction, hexponent, rfl⟩ := exists_texts_of_isFraction hrest
    exact ⟨sign, hsign, whole, fraction, exponent, hwhole, hfraction, hexponent, rfl⟩
  · rintro ⟨sign, hsign, whole, fraction, exponent, hwhole, hfraction, hexponent, rfl⟩
    have hmagnitude := isMagnitude_of_texts hwhole (isFraction_of_texts hfraction hexponent)
      (stopsAt_texts hfraction hexponent)
    simp only [List.mem_cons, List.not_mem_nil, or_false] at hsign
    rcases hsign with rfl | rfl
    · rw [List.nil_append, isNumber]
      · exact hmagnitude
      · intro rest heq
        rw [heq] at hmagnitude
        cases hmagnitude
    · exact hmagnitude

end Json

end PocketCalculator
