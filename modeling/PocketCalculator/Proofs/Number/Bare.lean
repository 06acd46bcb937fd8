import PocketCalculator.Proofs.Number.Grouped

/-!
# Bare texts

A bare text is a displayed one without grouping and with `.` for the decimal separator: what is
the same in every locale. A grouped text of known characters is determined by its bare text, has
the same last character, and stands for the same expression.
-/

namespace PocketCalculator

namespace Separators

variable {s : Separators} {c : Char} {t u : Text} {value : Float}

/-- A character of a displayed text, with `.` for the decimal separator. -/
def bareChar (s : Separators) (c : Char) : Char :=
  if c = s.decimal then '.' else c

/-- A displayed text without grouping and with `.` for the decimal separator. -/
def bare (s : Separators) (t : Text) : Text :=
  (s.ungroup t).map s.bareChar

/-- Whether a displayed text has only characters that keys can put there. -/
def Known (s : Separators) (t : Text) : Prop := ∀ c ∈ t, s.isNumeric c ∨ isReserved c

@[simp] theorem bare_nil (s : Separators) : s.bare [] = [] := rfl

theorem bare_append (s : Separators) (t u : Text) : s.bare (t ++ u) = s.bare t ++ s.bare u := by
  rw [bare, ungroup_append, List.map_append]
  rfl

theorem bare_regroup (s : Separators) (t : Text) : s.bare (s.regroup t) = s.bare t := by
  rw [bare, ungroup_regroup]
  rfl

theorem bareChar_decimal (s : Separators) : s.bareChar s.decimal = '.' := if_pos rfl

/-! ### Reserved characters -/

theorem isReserved_point : isReserved '.' = false := by decide +kernel

theorem Accepted.bareChar_eq (hs : s.Accepted) (hc : isReserved c) : s.bareChar c = c :=
  if_neg (hs.ne_decimal hc)

theorem Accepted.bare_eq_self (hs : s.Accepted) (ht : ∀ c ∈ t, isReserved c) : s.bare t = t := by
  have hungroup : s.ungroup t = t := ungroup_eq_self fun h => hs.ne_grouping (ht _ h) rfl
  rw [bare, hungroup]
  exact (List.map_congr_left fun c hc => hs.bareChar_eq (ht c hc)).trans (List.map_id t)

theorem Accepted.bare_singleton (hs : s.Accepted) (hc : isReserved c) : s.bare [c] = [c] :=
  hs.bare_eq_self (by simpa using hc)

theorem Accepted.bare_zero (hs : s.Accepted) : s.bare ['0'] = ['0'] :=
  hs.bare_singleton (isReserved_of_isDigit (by decide))

theorem Accepted.bare_decimal (hs : s.Accepted) : s.bare [s.decimal] = ['.'] := by
  rw [bare, ungroup_cons_of_ne hs.1]
  exact congrArg (· :: []) s.bareChar_decimal

/-- What is asked of a character can be asked of the bare one, if it holds of reserved characters
only. -/
theorem Accepted.apply_bareChar (hs : s.Accepted) {p : Char → Bool} (hp : ∀ c, p c → isReserved c)
    (c : Char) : p (s.bareChar c) = p c := by
  have hfalse : ∀ d, isReserved d = false → p d = false := by
    intro d hd
    by_contra h
    rw [hp d (by simpa using h)] at hd
    cases hd
  unfold bareChar
  split
  · rename_i hc
    rw [hc, hfalse _ isReserved_point, hfalse _ hs.2.1]
  · rfl

/-! ### Known characters -/

theorem Known.append (ht : s.Known t) (hu : s.Known u) : s.Known (t ++ u) := by
  intro c hc
  exact (List.mem_append.1 hc).elim (ht c) (hu c)

theorem Known.of_append (h : s.Known (t ++ u)) : s.Known t := fun c hc =>
  h c (List.mem_append_left _ hc)

theorem Known.dropLast (h : s.Known t) : s.Known t.dropLast := fun c hc =>
  h c ((List.dropLast_sublist t).mem hc)

theorem known_of_isReserved (h : ∀ c ∈ t, isReserved c) : s.Known t := fun c hc => Or.inr (h c hc)

theorem known_nil (s : Separators) : s.Known [] := fun _ hc => nomatch hc

theorem known_singleton (hc : isReserved c) : s.Known [c] :=
  known_of_isReserved (by simpa using hc)

theorem known_decimal (s : Separators) : s.Known [s.decimal] := by
  simpa [Known] using Or.inl s.isNumeric_decimal

theorem known_of_ungroup (h : s.Known (s.ungroup t)) : s.Known t := by
  intro c hc
  by_cases hgrouping : c = s.grouping
  · exact Or.inl (by simp [isNumeric, hgrouping])
  · exact h c (mem_ungroup.2 ⟨hc, hgrouping⟩)

theorem Known.ungroup (h : s.Known t) : s.Known (s.ungroup t) := fun c hc =>
  h c (mem_ungroup.1 hc).1

theorem Known.regroup (h : s.Known t) : s.Known (s.regroup t) :=
  known_of_ungroup (by rw [ungroup_regroup]; exact h.ungroup)

theorem known_digits (s : Separators) (value : Float) : s.Known (s.digits value) := by
  intro c hc
  rcases mem_digits hc with h | rfl | rfl | h
  · exact Or.inr (errorMarker_isReserved c h).1
  · exact Or.inl s.isNumeric_decimal
  · exact Or.inr (isReserved_of_isGlyph (by decide))
  · exact Or.inr (isReserved_of_isDigit h)

theorem known_readout (s : Separators) (value : Float) : s.Known (s.readout value) :=
  known_of_ungroup (by rw [readout, ungroup_group]; exact (known_digits s value).ungroup)

/-- A known character that is bare is no decimal point of another locale. -/
theorem Known.eq_decimal (h : s.Known t) (hc : c ∈ s.ungroup t) (hpoint : s.bareChar c = '.') :
    c = s.decimal := by
  by_contra hne
  obtain ⟨hmem, hgrouping⟩ := mem_ungroup.1 hc
  have hpoint : c = '.' := by rwa [bareChar, if_neg hne] at hpoint
  rcases h c hmem with hnumeric | hreserved
  · subst hpoint
    simp [isNumeric, hne, hgrouping] at hnumeric
  · rw [hpoint, isReserved_point] at hreserved
    cases hreserved

/-- Known characters are told apart by their bare ones. -/
theorem Known.bareChar_inj {d : Char} (ht : s.Known t) (hu : s.Known u) (hc : c ∈ s.ungroup t)
    (hd : d ∈ s.ungroup u) (e : s.bareChar c = s.bareChar d) : c = d := by
  by_cases hcd : c = s.decimal
  · rw [hcd, bareChar_decimal] at e
    rw [hcd, hu.eq_decimal hd e.symm]
  · by_cases hdd : d = s.decimal
    · rw [hdd, bareChar_decimal] at e
      rw [hdd, ht.eq_decimal hc e]
    · rwa [bareChar, bareChar, if_neg hcd, if_neg hdd] at e

theorem eq_of_map_eq {f : Char → Char} (hinj : ∀ c ∈ t, ∀ d ∈ u, f c = f d → c = d)
    (e : t.map f = u.map f) : t = u := by
  induction t generalizing u with
  | nil => exact (List.map_eq_nil_iff.1 e.symm).symm
  | cons c t ih =>
    cases u with
    | nil => cases e
    | cons d u =>
      obtain ⟨hcd, htu⟩ := List.cons.inj e
      rw [hinj c List.mem_cons_self d List.mem_cons_self hcd,
        ih (fun x hx y hy => hinj x (List.mem_cons_of_mem c hx) y (List.mem_cons_of_mem d hy)) htu]

theorem ungroup_eq_of_bare_eq (ht : s.Known t) (hu : s.Known u) (e : s.bare t = s.bare u) :
    s.ungroup t = s.ungroup u :=
  eq_of_map_eq (fun _ hc _ hd => ht.bareChar_inj hu hc hd) e

/-- Grouped texts of known characters are told apart by their bare texts. -/
theorem Grouped.eq_of_bare_eq (h : s.Grouped t) (h' : s.Grouped u) (ht : s.Known t)
    (hu : s.Known u) (e : s.bare t = s.bare u) : t = u :=
  h.eq_of_ungroup_eq h' (ungroup_eq_of_bare_eq ht hu e)

/-! ### The ends of a text -/

theorem Grouped.head?_bare (h : s.Grouped t) : (s.bare t).head? = t.head?.map s.bareChar := by
  rw [bare, List.head?_map, h.head?_eq]

theorem Grouped.getLast?_bare (h : s.Grouped t) :
    (s.bare t).getLast? = t.getLast?.map s.bareChar := by
  rw [bare, List.getLast?_map, h.getLast?_eq]

theorem Grouped.bare_dropLast (h : s.Grouped t) : s.bare t.dropLast = (s.bare t).dropLast := by
  cases t using List.reverseRecOn with
  | nil => rfl
  | append_singleton t c =>
    have hc : c ≠ s.grouping := h.getLast?_ne List.getLast?_concat
    have hbare : s.bare [c] = [s.bareChar c] := by
      rw [bare, ungroup_cons_of_ne hc]
      rfl
    rw [List.dropLast_concat, bare_append, hbare, List.dropLast_concat]

/-! ### Neat texts -/

/-- Whether a text is grouped and has only characters that keys can put there. -/
structure Neat (s : Separators) (t : Text) : Prop where
  grouped : s.Grouped t
  known : s.Known t

theorem neat_nil (s : Separators) : s.Neat [] := ⟨s.grouped_nil, known_nil s⟩

theorem Accepted.neat_zero (hs : s.Accepted) : s.Neat ['0'] :=
  ⟨hs.grouped_zero, known_singleton (isReserved_of_isDigit (by decide))⟩

theorem Neat.eq_iff (h : s.Neat t) (hs : s.Accepted) (hu : s.Grouped u)
    (hreserved : ∀ c ∈ u, isReserved c) : s.bare t = u ↔ t = u := by
  have hbare := hs.bare_eq_self hreserved
  constructor
  · intro e
    exact h.grouped.eq_of_bare_eq hu h.known (known_of_isReserved hreserved) (e.trans hbare.symm)
  · rintro rfl
    exact hbare

theorem Neat.eq_nil_iff (h : s.Neat t) (hs : s.Accepted) : s.bare t = [] ↔ t = [] :=
  h.eq_iff hs s.grouped_nil fun _ hc => nomatch hc

theorem Neat.eq_zero_iff (h : s.Neat t) (hs : s.Accepted) : s.bare t = ['0'] ↔ t = ['0'] :=
  h.eq_iff hs hs.grouped_zero (by simpa using isReserved_of_isDigit (by decide))

theorem Neat.any_getLast? (h : s.Neat t) (hs : s.Accepted) {p : Char → Bool}
    (hp : ∀ c, p c → isReserved c) : (s.bare t).getLast?.any p = t.getLast?.any p := by
  rw [h.grouped.getLast?_bare, Option.any_map]
  congr
  funext c
  exact hs.apply_bareChar hp c

/-! ### Expressions and readouts -/

/-- The expression of a displayed text is that of the bare text. -/
theorem plain_eq_map_bare (s : Separators) (t : Text) :
    s.plain t = (s.bare t).map (plainChar {}) := by
  rw [plain, bare, List.map_map]
  refine List.map_congr_left fun c _ => ?_
  rw [Function.comp_apply, bareChar]
  split
  · rename_i hc
    rw [plainChar, if_pos hc]
    rfl
  · rename_i hc
    rw [plainChar, if_neg hc]
    by_cases hpoint : c = '.'
    · subst hpoint
      rfl
    · rw [plainChar, if_neg hpoint]

theorem Accepted.bare_localized (hs : s.Accepted) {t : Text}
    (ht : ∀ c ∈ t, c = '.' ∨ isReserved c) :
    s.bare (t.map fun c => if c = '.' then s.decimal else c) = t := by
  have hgrouping : s.grouping ∉ t.map fun c => if c = '.' then s.decimal else c := by
    intro h
    obtain ⟨c, hc, he⟩ := List.mem_map.1 h
    split at he
    · exact hs.1 he
    · rename_i hpoint
      exact hs.ne_grouping ((ht c hc).resolve_left hpoint) he
  rw [bare, ungroup_eq_self hgrouping, List.map_map]
  refine (List.map_congr_left fun c hc => ?_).trans (List.map_id t)
  rw [Function.comp_apply, id]
  split
  · rename_i hpoint
    rw [hpoint, bareChar_decimal]
  · rename_i hpoint
    exact hs.bareChar_eq ((ht c hc).resolve_left hpoint)

/-- The bare readout of a value is its decimal text. -/
theorem Accepted.bare_readout (hs : s.Accepted) {t : Text} (ht : doubleText? value = some t) :
    s.bare (s.readout value) = t := by
  obtain ⟨u, hu, hchars⟩ := exists_of_doubleText?_eq_some ht
  have hreserved : ∀ c ∈ u, c = '.' ∨ isReserved c := by
    intro c hc
    have hdigit := hchars c hc
    rw [isDigitOrPoint, Bool.or_eq_true, beq_iff_eq] at hdigit
    exact hdigit.symm.imp_right isReserved_of_isDigit
  have hall : ∀ c ∈ t, c = '.' ∨ isReserved c := by
    rcases hu with rfl | rfl
    · exact hreserved
    · exact List.forall_mem_cons.2 ⟨Or.inr (isReserved_of_isGlyph (by decide)), hreserved⟩
  have hgroup : s.bare (s.group (s.digits value)) = s.bare (s.digits value) := by
    rw [bare, ungroup_group]
    rfl
  rw [readout, hgroup, digits, ht]
  exact hs.bare_localized hall

end Separators

end PocketCalculator
