import PocketCalculator.Number.Plain
import PocketCalculator.Proofs.Decimal.Written
import PocketCalculator.Proofs.Number.Grouping

/-!
# Grouped formulas

A formula is grouped if grouping changes nothing in it. With acceptable separators a grouped
formula stays grouped when an operator, a parenthesis or a decimal separator is added or taken
away at its end, and every readout is grouped.
-/

namespace PocketCalculator

namespace Separators

variable {s : Separators} {c : Char} {run t u : Text} {value : Float}

/-! ### Reserved characters -/

theorem isReserved_of_isDigit (hc : c.isDigit) : isReserved c := by
  simp [isReserved, hc]

theorem isReserved_of_isGlyph (hc : Operator.isGlyph c) : isReserved c := by
  simp [isReserved, hc]

theorem isReserved_of_mem (hc : c ∈ ['(', ')', '^', '*', '/']) : isReserved c := by
  rw [isReserved, List.contains_iff_mem.2 hc, Bool.or_true]

theorem Accepted.ne_decimal (hs : s.Accepted) (hc : isReserved c) : c ≠ s.decimal := by
  rintro rfl
  rw [hs.2.1] at hc
  cases hc

theorem Accepted.ne_grouping (hs : s.Accepted) (hc : isReserved c) : c ≠ s.grouping := by
  rintro rfl
  rw [hs.2.2] at hc
  cases hc

/-- The digits are the only reserved characters in numbers. -/
theorem Accepted.isNumeric_eq (hs : s.Accepted) (hc : isReserved c) :
    s.isNumeric c = c.isDigit := by
  have hdecimal := beq_eq_false_iff_ne.2 (hs.ne_decimal hc)
  have hgrouping := beq_eq_false_iff_ne.2 (hs.ne_grouping hc)
  rw [isNumeric, hdecimal, hgrouping, Bool.or_false, Bool.or_false]

theorem Accepted.isNumeric_eq_false (hs : s.Accepted) (hc : isReserved c)
    (hdigit : c.isDigit = false) : s.isNumeric c = false :=
  (hs.isNumeric_eq hc).trans hdigit

theorem isNumeric_of_isDigit (s : Separators) (hc : c.isDigit) : s.isNumeric c := by
  simp [isNumeric, hc]

theorem isNumeric_decimal (s : Separators) : s.isNumeric s.decimal := by
  simp [isNumeric]

/-! ### A decimal separator at the end -/

theorem groupUnsigned_concat (s : Separators) (t : Text) :
    s.groupUnsigned (t ++ [s.decimal]) = s.groupUnsigned t ++ [s.decimal] := by
  have htake := takeWhile_concat (p := fun c => c != s.decimal) (bne_self_eq_false _) t
  have hdrop := dropWhile_concat (p := fun c => c != s.decimal) (bne_self_eq_false _) t
  rw [groupUnsigned, htake, hdrop, ← List.append_assoc, ← groupUnsigned]

theorem Accepted.isNumeric_minus (hs : s.Accepted) : s.isNumeric '-' = false :=
  hs.isNumeric_eq_false (isReserved_of_isGlyph (by decide)) (by decide)

/-- Numbers have no sign. -/
theorem Accepted.group_eq (hs : s.Accepted) (hrun : ∀ c ∈ run, s.isNumeric c) :
    s.group run = s.groupUnsigned (s.ungroup run) := by
  refine group_of_ne_minus fun u hu => ?_
  have hminus : '-' ∈ s.ungroup run := by rw [hu]; exact List.mem_cons_self
  have hnumeric := hrun _ (mem_ungroup.1 hminus).1
  rw [hs.isNumeric_minus] at hnumeric
  cases hnumeric

theorem Accepted.group_concat (hs : s.Accepted) (hrun : ∀ c ∈ run, s.isNumeric c) :
    s.group (run ++ [s.decimal]) = s.group run ++ [s.decimal] := by
  have hnumeric : ∀ c ∈ run ++ [s.decimal], s.isNumeric c := by
    simpa [or_imp, forall_and, isNumeric_decimal] using hrun
  have hungroup : s.ungroup [s.decimal] = [s.decimal] := by
    rw [ungroup_cons_of_ne hs.1]
    rfl
  rw [hs.group_eq hnumeric, hs.group_eq hrun, ungroup_append, hungroup, groupUnsigned_concat]

theorem regroup_of_isNumeric (hrun : ∀ c ∈ run, s.isNumeric c) : s.regroup run = s.group run := by
  have h := regroup_run hrun stopsAt_nil
  rwa [List.append_nil, regroup_nil, List.append_nil] at h

theorem Accepted.regroup_concat_decimal (hs : s.Accepted) (t : Text) :
    s.regroup (t ++ [s.decimal]) = s.regroup t ++ [s.decimal] := by
  induction t using runs_induction s with
  | nil =>
    have h : s.group ([] ++ [s.decimal]) = s.group [] ++ [s.decimal] :=
      hs.group_concat fun _ hc => nomatch hc
    rw [regroup_of_isNumeric (by simpa using isNumeric_decimal s), regroup_nil]
    exact h
  | other c t hc ih => rw [List.cons_append, regroup_cons hc, regroup_cons hc, ih, List.cons_append]
  | number run rest hrun hrest ih =>
    cases rest with
    | nil =>
      have hnumeric : ∀ c ∈ run ++ [s.decimal], s.isNumeric c := by
        simpa [or_imp, forall_and, isNumeric_decimal] using hrun
      rw [List.append_nil, regroup_of_isNumeric hnumeric, regroup_of_isNumeric hrun,
        hs.group_concat hrun]
    | cons c rest =>
      have hstop : StopsAt s.isNumeric (c :: rest ++ [s.decimal]) :=
        stopsAt_cons.2 (stopsAt_cons.1 hrest)
      rw [List.append_assoc, regroup_run hrun hstop, regroup_run hrun hrest, ih, List.append_assoc]

/-! ### Grouped formulas -/

/-- Whether grouping changes nothing in a formula. -/
def Grouped (s : Separators) (t : Text) : Prop := s.regroup t = t

theorem grouped_nil (s : Separators) : s.Grouped [] := regroup_nil s

theorem grouped_regroup (s : Separators) (t : Text) : s.Grouped (s.regroup t) :=
  regroup_regroup s t

/-- Whether a character can be added to or taken from the end without grouping anew. -/
def Loose (s : Separators) (c : Char) : Prop := s.isNumeric c = false ∨ c = s.decimal

theorem Accepted.regroup_concat (hs : s.Accepted) (hc : s.Loose c) (t : Text) :
    s.regroup (t ++ [c]) = s.regroup t ++ [c] := by
  rcases hc with hc | rfl
  · rw [regroup_append_of_stopsAt t (stopsAt_cons.2 hc), regroup_cons hc, regroup_nil]
  · exact hs.regroup_concat_decimal t

theorem Accepted.loose_of_isReserved (hs : s.Accepted) (hc : isReserved c)
    (hdigit : c.isDigit = false) : s.Loose c :=
  Or.inl (hs.isNumeric_eq_false hc hdigit)

theorem Grouped.concat (h : s.Grouped t) (hs : s.Accepted) (hc : s.Loose c) :
    s.Grouped (t ++ [c]) :=
  (hs.regroup_concat hc t).trans (congrArg (· ++ [c]) h)

theorem Grouped.of_concat (h : s.Grouped (t ++ [c])) (hs : s.Accepted) (hc : s.Loose c) :
    s.Grouped t := by
  rw [Grouped, hs.regroup_concat hc] at h
  exact List.append_cancel_right h

theorem Grouped.dropLast (h : s.Grouped t) (hs : s.Accepted)
    (hc : ∀ c, t.getLast? = some c → s.Loose c) : s.Grouped t.dropLast := by
  cases t using List.reverseRecOn with
  | nil => exact h
  | append_singleton t c =>
    rw [List.dropLast_concat]
    exact h.of_concat hs (hc c List.getLast?_concat)

theorem Grouped.append (h : s.Grouped t) (hs : s.Accepted) (hu : ∀ c ∈ u, s.Loose c) :
    s.Grouped (t ++ u) := by
  induction u using List.reverseRecOn with
  | nil => rwa [List.append_nil]
  | append_singleton u c ih =>
    rw [← List.append_assoc]
    refine Grouped.concat (ih fun d hd => hu d (List.mem_append_left _ hd)) hs ?_
    exact hu c (List.mem_append_right _ List.mem_cons_self)

/-- A formula of characters that can stand at its end. -/
theorem grouped_of_loose (hs : s.Accepted) (hu : ∀ c ∈ u, s.Loose c) : s.Grouped u := by
  have h := (grouped_nil s).append hs hu
  rwa [List.nil_append] at h

theorem Accepted.grouped_zero (hs : s.Accepted) : s.Grouped ['0'] := by
  have hnumeric : ∀ c ∈ ['0'], s.isNumeric c := by simp [isNumeric]
  have hungroup : s.ungroup ['0'] = ['0'] :=
    ungroup_cons_of_ne (hs.ne_grouping (by decide)) []
  have hdecimal : '0' ≠ s.decimal := hs.ne_decimal (by decide)
  rw [Grouped, regroup_of_isNumeric hnumeric, hs.group_eq hnumeric, hungroup]
  simp [groupUnsigned, groupInteger, inThrees, hdecimal]

/-- A zero starts a number of its own where the last character is in none. -/
theorem Grouped.concat_zero (h : s.Grouped t) (hs : s.Accepted)
    (ht : ∀ c, t.getLast? = some c → s.isNumeric c = false) : s.Grouped (t ++ ['0']) := by
  rw [Grouped, regroup_append_of_getLast? ht, h, hs.grouped_zero]

/-- A grouped formula does not end with a grouping separator. -/
theorem Grouped.getLast?_eq (h : s.Grouped t) : t.getLast? = (s.ungroup t).getLast? := by
  have hlast := getLast?_regroup s t
  rwa [h] at hlast

/-- Nor does it start with one. -/
theorem Grouped.head?_eq (h : s.Grouped t) : t.head? = (s.ungroup t).head? := by
  have hhead := head?_regroup s t
  rwa [h] at hhead

theorem Grouped.getLast?_ne (h : s.Grouped t) (hc : t.getLast? = some c) : c ≠ s.grouping := by
  rw [h.getLast?_eq] at hc
  exact (mem_ungroup.1 (List.mem_of_getLast? hc)).2

theorem Grouped.eq_of_ungroup_eq (ht : s.Grouped t) (hu : s.Grouped u)
    (h : s.ungroup t = s.ungroup u) : t = u := by
  rw [← ht, ← hu]
  exact regroup_congr h

/-! ### Readouts -/

theorem errorMarker_isReserved : ∀ c ∈ errorMarker, isReserved c ∧ c.isDigit = false := by
  have hall : errorMarker.all fun c => isReserved c && !c.isDigit := by decide
  simpa using hall

theorem Accepted.grouped_errorMarker (hs : s.Accepted) : s.Grouped errorMarker :=
  grouped_of_loose hs fun c hc => hs.loose_of_isReserved (errorMarker_isReserved c hc).1
    (errorMarker_isReserved c hc).2

/-- The text of a double is its digits and decimal separators after at most one sign. -/
theorem exists_digits_eq_of_text (ht : doubleText? value = some t) :
    ∃ u, (s.digits value = u ∨ s.digits value = '-' :: u) ∧
      ∀ c ∈ u, c = s.decimal ∨ c.isDigit := by
  obtain ⟨u, hu, hchars⟩ := exists_of_doubleText?_eq_some ht
  refine ⟨u.map fun c => if c = '.' then s.decimal else c, ?_, ?_⟩
  · unfold digits
    rw [ht]
    rcases hu with rfl | rfl
    · exact Or.inl rfl
    · exact Or.inr rfl
  · intro c hc
    obtain ⟨d, hd, rfl⟩ := List.mem_map.1 hc
    have hdigit := hchars d hd
    split
    · exact Or.inl rfl
    · rename_i hpoint
      simp only [isDigitOrPoint, Bool.or_eq_true, beq_iff_eq, hpoint, or_false] at hdigit
      exact Or.inr hdigit

/-- The characters of a value without grouping. -/
theorem mem_digits (h : c ∈ s.digits value) :
    c ∈ errorMarker ∨ c = s.decimal ∨ c = '-' ∨ c.isDigit := by
  cases ht : doubleText? value with
  | none =>
    unfold digits at h
    rw [ht] at h
    exact Or.inl h
  | some t =>
    obtain ⟨u, hu, hchars⟩ := exists_digits_eq_of_text (s := s) ht
    have hmem : c = '-' ∨ c ∈ u := by
      rcases hu with hu | hu
      · exact Or.inr (hu ▸ h)
      · exact List.mem_cons.1 (hu ▸ h)
    rcases hmem with hminus | hmem
    · exact Or.inr (Or.inr (Or.inl hminus))
    · exact Or.inr ((hchars c hmem).imp_right Or.inr)

/-- A finite value without grouping is a number after at most one sign. -/
theorem exists_digits_eq (h : value.isFinite) :
    ∃ u, (s.digits value = u ∨ s.digits value = '-' :: u) ∧ ∀ c ∈ u, s.isNumeric c := by
  obtain ⟨t, ht⟩ := exists_doubleText?_eq_some h
  obtain ⟨u, hu, hchars⟩ := exists_digits_eq_of_text (s := s) ht
  refine ⟨u, hu, fun c hc => ?_⟩
  rcases hchars c hc with rfl | hdigit
  · exact isNumeric_decimal s
  · exact isNumeric_of_isDigit s hdigit

theorem Accepted.readout_eq (hs : s.Accepted) (h : value.isFinite) :
    s.readout value = s.regroup (s.digits value) := by
  obtain ⟨u, hdigits, hu⟩ := exists_digits_eq h
  have hminus := hs.isNumeric_minus
  rw [readout]
  rcases hdigits with hdigits | hdigits
  · rw [hdigits, regroup_of_isNumeric hu]
  · have hungroup := ungroup_cons_of_ne (ne_grouping_of_isNumeric hminus) u
    rw [hdigits, regroup_cons hminus, regroup_of_isNumeric hu, group_of_minus hungroup,
      hs.group_eq hu]

theorem Accepted.grouped_readout (hs : s.Accepted) (h : value.isFinite) :
    s.Grouped (s.readout value) := by
  rw [hs.readout_eq h]
  exact grouped_regroup s _

end Separators

end PocketCalculator
