import PocketCalculator.Editor.State
import PocketCalculator.Proofs.Number.Bare

/-!
# Parentheses and numbers

The number of open parentheses depends on the parentheses of a text alone, so it does not change
when numbers are grouped, and a readout has none.
-/

namespace PocketCalculator

variable {c : Char} {t u : Text}

/-- Whether a character is a parenthesis. -/
def isParen (c : Char) : Bool :=
  c == '(' || c == ')'

theorem openAfter_of_not_isParen (hc : isParen c = false) (count : Nat) :
    openAfter count c = count := by
  simp only [isParen, Bool.or_eq_false_iff, beq_eq_false_iff_ne] at hc
  rw [openAfter, if_neg hc.1, if_neg hc.2]

theorem foldl_openAfter (h : ∀ c ∈ u, isParen c = false) (count : Nat) :
    u.foldl openAfter count = count := by
  induction u with
  | nil => rfl
  | cons c u ih =>
    obtain ⟨hc, hu⟩ := List.forall_mem_cons.1 h
    rw [List.foldl_cons, openAfter_of_not_isParen hc, ih hu]

theorem unmatched_append (t : Text) (h : ∀ c ∈ u, isParen c = false) :
    unmatched (t ++ u) = unmatched t := by
  rw [unmatched, List.foldl_append, foldl_openAfter h]
  rfl

theorem unmatched_eq_zero (h : ∀ c ∈ t, isParen c = false) : unmatched t = 0 :=
  foldl_openAfter h 0

theorem unmatched_filter {p : Char → Bool} (hp : ∀ c, p c = false → isParen c = false)
    (t : Text) : unmatched (t.filter p) = unmatched t := by
  rw [unmatched, List.foldl_filter, unmatched]
  congr
  funext count c
  split
  · rfl
  · rename_i hc
    rw [openAfter_of_not_isParen (hp c (by simpa using hc))]

theorem openAfter_le (count : Nat) (c : Char) : openAfter count c ≤ count + 1 := by
  unfold openAfter
  split
  · exact le_rfl
  · split <;> omega

theorem unmatched_le_length (t : Text) : unmatched t ≤ t.length := by
  induction t using List.reverseRecOn with
  | nil => exact le_rfl
  | append_singleton t c ih =>
    have h := openAfter_le (unmatched t) c
    rw [unmatched_append_singleton, List.length_append, List.length_singleton]
    omega

namespace Separators

variable {s : Separators} {value : Float}

/-- Whether neither separator is a parenthesis. -/
def SparesParens (s : Separators) : Prop := isParen s.decimal = false ∧ isParen s.grouping = false

theorem Accepted.sparesParens (h : s.Accepted) : s.SparesParens := by
  have hparen : ∀ c, isReserved c = false → isParen c = false := by
    intro c hc
    simp only [isReserved, Bool.or_eq_false_iff, List.contains_eq_mem, decide_eq_false_iff_not,
      List.mem_cons, not_or] at hc
    simp [isParen, hc]
  exact ⟨hparen _ h.2.1, hparen _ h.2.2⟩

theorem unmatched_ungroup (hs : s.SparesParens) (t : Text) :
    unmatched (s.ungroup t) = unmatched t := by
  refine unmatched_filter (fun c hc => ?_) t
  obtain rfl : c = s.grouping := by simpa using hc
  exact hs.2

theorem unmatched_regroup (hs : s.SparesParens) (t : Text) :
    unmatched (s.regroup t) = unmatched t := by
  rw [← unmatched_ungroup hs, ungroup_regroup, unmatched_ungroup hs]

theorem unmatched_group (hs : s.SparesParens) (t : Text) : unmatched (s.group t) = unmatched t := by
  rw [← unmatched_ungroup hs, ungroup_group, unmatched_ungroup hs]

theorem isParen_of_isDigit (hc : c.isDigit) : isParen c = false := by
  rw [isParen, Bool.or_eq_false_iff, beq_eq_false_iff_ne, beq_eq_false_iff_ne]
  constructor
  · rintro rfl
    exact absurd hc (by decide)
  · rintro rfl
    exact absurd hc (by decide)

theorem isParen_of_mem_digits (hs : s.SparesParens) (h : c ∈ s.digits value) :
    isParen c = false := by
  have hmarker : ∀ c ∈ errorMarker, isParen c = false := by simp [errorMarker, isParen]
  rcases mem_digits h with h | rfl | rfl | h
  · exact hmarker c h
  · exact hs.1
  · decide
  · exact isParen_of_isDigit h

theorem unmatched_readout (hs : s.SparesParens) (value : Float) :
    unmatched (s.readout value) = 0 := by
  rw [readout, unmatched_group hs, unmatched_eq_zero fun c hc => isParen_of_mem_digits hs hc]

theorem openAfter_bareChar (hs : s.SparesParens) (count : Nat) (c : Char) :
    openAfter count (s.bareChar c) = openAfter count c := by
  rw [bareChar]
  split
  · rename_i hc
    rw [hc, openAfter_of_not_isParen (by decide), openAfter_of_not_isParen hs.1]
  · rfl

theorem unmatched_bare (hs : s.SparesParens) (t : Text) : unmatched (s.bare t) = unmatched t := by
  rw [bare, unmatched, List.foldl_map, ← unmatched_ungroup hs t, unmatched]
  congr
  funext count c
  exact openAfter_bareChar hs count c

end Separators

end PocketCalculator
