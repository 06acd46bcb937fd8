import PocketCalculator.Proofs.Number.Parentheses

/-!
# Balanced texts

Every closing parenthesis of a text closes one exactly if every prefix has at least as many opening
as closing ones (`closes_iff_count_le`). Dropping the others leaves such a text, and if nothing is
open at its end it is balanced. Only the parentheses matter for this, so grouping does not.
-/

namespace PocketCalculator

variable {c : Char} {count : Nat} {t u : Text}

/-- Whether every closing parenthesis of a text closes one, when `count` are open before it. -/
def Closes : (count : Nat) → Text → Prop
  | _, [] => True
  | count, c :: t => (c = ')' → 0 < count) ∧ Closes (openAfter count c) t

/-! ### Parts of a text -/

theorem closes_nil : Closes count [] := trivial

theorem closes_append :
    Closes count (t ++ u) ↔ Closes count t ∧ Closes (t.foldl openAfter count) u := by
  induction t generalizing count with
  | nil => simp [Closes]
  | cons c t ih => simp [Closes, ih, and_assoc]

theorem closes_concat :
    Closes count (t ++ [c]) ↔ Closes count t ∧ (c = ')' → 0 < t.foldl openAfter count) := by
  rw [closes_append, Closes, Closes, and_true]

theorem Closes.of_append (h : Closes count (t ++ u)) : Closes count t := (closes_append.1 h).1

theorem Closes.dropLast (h : Closes count t) : Closes count t.dropLast := by
  cases t using List.reverseRecOn with
  | nil => exact h
  | append_singleton t c =>
    rw [List.dropLast_concat]
    exact h.of_append

theorem closes_of_not_isParen (h : ∀ c ∈ t, isParen c = false) : Closes count t := by
  induction t generalizing count with
  | nil => trivial
  | cons c t ih =>
    obtain ⟨hc, ht⟩ := List.forall_mem_cons.1 h
    refine ⟨?_, ih ht⟩
    rintro rfl
    cases hc

theorem Closes.append (h : Closes count t) (hu : ∀ c ∈ u, isParen c = false) :
    Closes count (t ++ u) :=
  closes_append.2 ⟨h, closes_of_not_isParen hu⟩

theorem closes_replicate (count : Nat) : Closes count (List.replicate count ')') := by
  induction count with
  | zero => trivial
  | succ count ih => exact ⟨fun _ => Nat.succ_pos count, ih⟩

/-- Characters that are no parentheses have no part in it. -/
theorem closes_filter_iff {p : Char → Bool} (hp : ∀ c, p c = false → isParen c = false) :
    Closes count (t.filter p) ↔ Closes count t := by
  induction t generalizing count with
  | nil => exact Iff.rfl
  | cons c t ih =>
    cases hc : p c with
    | true => rw [List.filter_cons_of_pos hc, Closes, Closes, ih]
    | false =>
      have hparen := hp c hc
      have hclose : c ≠ ')' := by
        rintro rfl
        cases hparen
      rw [List.filter_cons_of_neg (by simp [hc]), ih, Closes, openAfter_of_not_isParen hparen]
      simp [hclose]

/-! ### Counting -/

theorem openAfter_add_count (h : c = ')' → 0 < count) :
    openAfter count c + [c].count ')' = count + [c].count '(' := by
  unfold openAfter
  split
  · rename_i hopen
    subst hopen
    rfl
  · rename_i hopen
    split
    · rename_i hclose
      subst hclose
      exact Nat.sub_add_cancel (h rfl)
    · rename_i hclose
      rw [List.count_singleton, List.count_singleton, if_neg (by simpa using hclose),
        if_neg (by simpa using hopen)]

/-- What is open at the end is what was opened and not closed. -/
theorem Closes.foldl_add_count (h : Closes count t) :
    t.foldl openAfter count + t.count ')' = count + t.count '(' := by
  induction t generalizing count with
  | nil => rfl
  | cons c t ih =>
    have hfirst := openAfter_add_count h.1
    have hrest := ih h.2
    rw [List.foldl_cons, ← List.singleton_append, List.count_append, List.count_append]
    omega

/-- Every closing parenthesis closes one exactly if no prefix has more of them than are open. -/
theorem closes_iff_count_le :
    Closes count t ↔ ∀ u, u <+: t → u.count ')' ≤ count + u.count '(' := by
  constructor
  · rintro h u ⟨v, rfl⟩
    have hcount := h.of_append.foldl_add_count
    omega
  · intro h
    induction t using List.reverseRecOn with
    | nil => trivial
    | append_singleton t c ih =>
      have hcloses := ih fun u hu => h u (hu.trans (List.prefix_append t [c]))
      refine closes_concat.2 ⟨hcloses, ?_⟩
      rintro rfl
      have hcount := hcloses.foldl_add_count
      have hall := h _ (List.prefix_refl _)
      have hone : [')'].count ')' = 1 := rfl
      have hzero : [')'].count '(' = 0 := rfl
      rw [List.count_append, List.count_append, hone, hzero] at hall
      omega

theorem closes_zero_iff : Closes 0 t ↔ ∀ u, u <+: t → u.count ')' ≤ u.count '(' := by
  simpa using @closes_iff_count_le 0 t

/-- Whether a text has as many opening as closing parentheses, and no prefix more closing ones. -/
structure Balanced (t : Text) : Prop where
  count_le : ∀ u, u <+: t → u.count ')' ≤ u.count '('
  count_eq : t.count '(' = t.count ')'

theorem Closes.balanced (h : Closes 0 t) (hnone : unmatched t = 0) : Balanced t := by
  constructor
  · exact closes_zero_iff.1 h
  · have hcount := h.foldl_add_count
    rw [unmatched] at hnone
    omega

/-! ### Dropping the others -/

theorem dropStrayFrom_eq_self (h : Closes count t) : dropStrayFrom count t = t := by
  fun_induction dropStrayFrom count t with
  | case1 => rfl
  | case2 rest => exact absurd (h.1 rfl) (Nat.lt_irrefl 0)
  | case3 count c rest _ ih => rw [ih h.2]

theorem closes_dropStrayFrom (count : Nat) (t : Text) : Closes count (dropStrayFrom count t) := by
  fun_induction dropStrayFrom count t with
  | case1 => trivial
  | case2 rest ih => exact ih
  | case3 count c rest hstray ih =>
    refine ⟨?_, ih⟩
    rintro rfl
    exact Nat.pos_of_ne_zero fun hzero => hstray hzero rfl

/-! ### Numbers -/

namespace Separators

variable {s : Separators}

theorem closes_ungroup_iff (hs : s.SparesParens) : Closes count (s.ungroup t) ↔ Closes count t := by
  refine closes_filter_iff fun c hc => ?_
  obtain rfl : c = s.grouping := by simpa using hc
  exact hs.2

theorem closes_regroup_iff (hs : s.SparesParens) :
    Closes count (s.regroup t) ↔ Closes count t := by
  rw [← closes_ungroup_iff hs, ungroup_regroup, closes_ungroup_iff hs]

theorem closes_readout (hs : s.SparesParens) (value : Float) : Closes count (s.readout value) := by
  rw [← closes_ungroup_iff hs, readout, ungroup_group, closes_ungroup_iff hs]
  exact closes_of_not_isParen fun c hc => isParen_of_mem_digits hs hc

end Separators

end PocketCalculator
