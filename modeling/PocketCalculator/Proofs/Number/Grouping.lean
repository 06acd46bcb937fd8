import PocketCalculator.Number.Grouping
import PocketCalculator.Proofs.Text.Runs

/-!
# Grouping is canonical

Grouping a formula changes nothing but its grouping separators (`ungroup_regroup`), and they are
determined by the other characters (`regroup_ungroup`). So a formula in which every number is
grouped is known from its characters without the separators, and it ends with the same character.
Nothing of this asks for acceptable separators.
-/

namespace PocketCalculator

namespace Separators

variable {s : Separators} {c : Char} {run rest t u : Text}

/-! ### A single number -/

theorem mem_ungroup : c ∈ s.ungroup t ↔ c ∈ t ∧ c ≠ s.grouping := by
  simp [ungroup]

theorem ungroup_cons_of_ne (hc : c ≠ s.grouping) (t : Text) :
    s.ungroup (c :: t) = c :: s.ungroup t :=
  List.filter_cons_of_pos (by simpa using hc)

theorem ungroup_eq_self (h : s.grouping ∉ t) : s.ungroup t = t := by
  refine List.filter_eq_self.2 fun c hc => ?_
  have hne : c ≠ s.grouping := fun e => h (e ▸ hc)
  simpa using hne

theorem ungroup_ungroup (s : Separators) (t : Text) : s.ungroup (s.ungroup t) = s.ungroup t :=
  ungroup_eq_self fun h => (mem_ungroup.1 h).2 rfl

theorem ungroup_groupUnsigned (s : Separators) (t : Text) :
    s.ungroup (s.groupUnsigned t) = s.ungroup t := by
  rw [groupUnsigned, ungroup_append, ungroup_groupInteger, ← ungroup_append,
    List.takeWhile_append_dropWhile]

theorem group_of_minus (h : s.ungroup t = '-' :: u) : s.group t = '-' :: s.groupUnsigned u := by
  unfold group
  rw [h]
  rfl

theorem group_of_ne_minus (h : ∀ u, s.ungroup t ≠ '-' :: u) :
    s.group t = s.groupUnsigned (s.ungroup t) := by
  unfold group
  split
  · rename_i u hu
    exact absurd hu (h u)
  · rfl

/-- A number has a sign or it has none. -/
theorem minus_or_not (t : Text) : (∃ u, t = '-' :: u) ∨ ∀ u, t ≠ '-' :: u := by
  by_cases h : ∃ u, t = '-' :: u
  · exact Or.inl h
  · exact Or.inr fun u hu => h ⟨u, hu⟩

theorem ungroup_group (s : Separators) (t : Text) : s.ungroup (s.group t) = s.ungroup t := by
  rcases minus_or_not (s.ungroup t) with ⟨u, hu⟩ | h
  · have hmem : '-' ∈ s.ungroup t := by rw [hu]; exact List.mem_cons_self
    rw [group_of_minus hu, ungroup_cons_of_ne (mem_ungroup.1 hmem).2, ungroup_groupUnsigned,
      ← ungroup_cons_of_ne (mem_ungroup.1 hmem).2, ← hu, ungroup_ungroup]
  · rw [group_of_ne_minus h, ungroup_groupUnsigned, ungroup_ungroup]

theorem group_ungroup (s : Separators) (t : Text) : s.group (s.ungroup t) = s.group t := by
  unfold group
  rw [ungroup_ungroup]

theorem head?_inThrees (separator : Char) (t : Text) : (inThrees separator t).head? = t.head? := by
  fun_cases inThrees separator t with
  | case1 => rfl
  | case2 => rfl

theorem getLast?_groupInteger (s : Separators) (t : Text) :
    (s.groupInteger t).getLast? = t.getLast? := by
  rw [groupInteger, List.getLast?_reverse, head?_inThrees, List.head?_reverse]

theorem getLast?_groupUnsigned (s : Separators) (t : Text) :
    (s.groupUnsigned t).getLast? = t.getLast? := by
  rw [groupUnsigned, List.getLast?_append, getLast?_groupInteger, ← List.getLast?_append,
    List.takeWhile_append_dropWhile]

/-- Grouping never adds a separator at the end. -/
theorem getLast?_group (s : Separators) (t : Text) :
    (s.group t).getLast? = (s.ungroup t).getLast? := by
  rcases minus_or_not (s.ungroup t) with ⟨u, hu⟩ | h
  · rw [group_of_minus hu, hu, List.getLast?_cons, List.getLast?_cons, getLast?_groupUnsigned]
  · rw [group_of_ne_minus h, getLast?_groupUnsigned]

theorem getLast?_inThrees (separator : Char) (t : Text) :
    (inThrees separator t).getLast? = t.getLast? := by
  fun_induction inThrees separator t with
  | case1 a b c d rest ih =>
    cases hrest : inThrees separator (d :: rest) with
    | nil =>
      have h := head?_inThrees separator (d :: rest)
      simp [hrest] at h
    | cons e rest' =>
      rw [hrest] at ih
      simpa using ih
  | case2 => rfl

/-- Grouping never adds a separator at the start. -/
theorem head?_group (s : Separators) (t : Text) :
    (s.group t).head? = (s.ungroup t).head? := by
  have hinteger : ∀ u : Text, (s.groupInteger u).head? = u.head? := by
    intro u
    rw [groupInteger, List.head?_reverse, getLast?_inThrees, List.getLast?_reverse]
  have hunsigned : ∀ u : Text, (s.groupUnsigned u).head? = u.head? := by
    intro u
    rw [groupUnsigned, List.head?_append, hinteger, ← List.head?_append,
      List.takeWhile_append_dropWhile]
  rcases minus_or_not (s.ungroup t) with ⟨u, hu⟩ | h
  · rw [group_of_minus hu, hu]
    rfl
  · rw [group_of_ne_minus h, hunsigned]

/-! ### A formula -/

@[simp] theorem regroup_nil (s : Separators) : s.regroup [] = [] := by
  unfold regroup
  rfl

theorem regroup_cons (hc : s.isNumeric c = false) (t : Text) :
    s.regroup (c :: t) = c :: s.regroup t := by
  rw [regroup, if_neg (by simp [hc])]

theorem regroup_run (h : ∀ c ∈ run, s.isNumeric c) (hrest : StopsAt s.isNumeric rest) :
    s.regroup (run ++ rest) = s.group run ++ s.regroup rest := by
  cases run with
  | nil => rfl
  | cons c run =>
    obtain ⟨hc, hrun⟩ := List.forall_mem_cons.1 h
    rw [List.cons_append, regroup, if_pos hc, takeWhile_run hrun hrest, dropWhile_run hrun hrest]

/-- A formula is made of characters outside of numbers and of whole numbers. -/
theorem runs_induction (s : Separators) {motive : Text → Prop} (nil : motive [])
    (other : ∀ c t, s.isNumeric c = false → motive t → motive (c :: t))
    (number : ∀ run rest, (∀ c ∈ run, s.isNumeric c) → StopsAt s.isNumeric rest → motive rest →
      motive (run ++ rest)) (t : Text) : motive t := by
  fun_induction s.regroup t with
  | case1 => exact nil
  | case2 c t hc ih =>
    have hrun : ∀ d ∈ c :: t.takeWhile s.isNumeric, s.isNumeric d :=
      List.forall_mem_cons.2 ⟨hc, fun d hd => List.mem_takeWhile_imp hd⟩
    have h := number _ _ hrun (stopsAt_dropWhile t) ih
    rwa [List.cons_append, List.takeWhile_append_dropWhile] at h
  | case3 c t hc ih => exact other c t (by simpa using hc) ih

theorem ne_grouping_of_isNumeric (hc : s.isNumeric c = false) : c ≠ s.grouping := by
  rintro rfl
  simp [isNumeric] at hc

theorem stopsAt_ungroup (h : StopsAt s.isNumeric t) : StopsAt s.isNumeric (s.ungroup t) := by
  cases t with
  | nil => exact stopsAt_nil
  | cons c t =>
    have hc := stopsAt_cons.1 h
    rw [ungroup_cons_of_ne (ne_grouping_of_isNumeric hc)]
    exact stopsAt_cons.2 hc

/-- Grouping changes nothing but the grouping separators. -/
theorem ungroup_regroup (s : Separators) (t : Text) : s.ungroup (s.regroup t) = s.ungroup t := by
  induction t using runs_induction s with
  | nil => rw [regroup_nil]
  | other c t hc ih =>
    have hne := ne_grouping_of_isNumeric hc
    rw [regroup_cons hc, ungroup_cons_of_ne hne, ungroup_cons_of_ne hne, ih]
  | number run rest hrun hrest ih =>
    rw [regroup_run hrun hrest, ungroup_append, ungroup_append, ungroup_group, ih]

/-- Grouping does not depend on the grouping so far. -/
theorem regroup_ungroup (s : Separators) (t : Text) : s.regroup (s.ungroup t) = s.regroup t := by
  induction t using runs_induction s with
  | nil => rfl
  | other c t hc ih =>
    rw [ungroup_cons_of_ne (ne_grouping_of_isNumeric hc), regroup_cons hc, regroup_cons hc, ih]
  | number run rest hrun hrest ih =>
    have h : ∀ c ∈ s.ungroup run, s.isNumeric c := fun c hc => hrun c (mem_ungroup.1 hc).1
    rw [ungroup_append, regroup_run h (stopsAt_ungroup hrest), regroup_run hrun hrest, ih,
      group_ungroup]

theorem regroup_congr (h : s.ungroup t = s.ungroup u) : s.regroup t = s.regroup u := by
  rw [← regroup_ungroup s t, h, regroup_ungroup]

theorem regroup_regroup (s : Separators) (t : Text) : s.regroup (s.regroup t) = s.regroup t :=
  regroup_congr (ungroup_regroup s t)

/-- Grouping never adds a separator at the end of a formula. -/
theorem getLast?_regroup (s : Separators) (t : Text) :
    (s.regroup t).getLast? = (s.ungroup t).getLast? := by
  induction t using runs_induction s with
  | nil => rw [regroup_nil]; rfl
  | other c t hc ih =>
    rw [regroup_cons hc, ungroup_cons_of_ne (ne_grouping_of_isNumeric hc), List.getLast?_cons,
      List.getLast?_cons, ih]
  | number run rest hrun hrest ih =>
    rw [regroup_run hrun hrest, ungroup_append, List.getLast?_append, List.getLast?_append, ih,
      getLast?_group]

/-- Grouping never adds a separator at the start of a formula. -/
theorem head?_regroup (s : Separators) (t : Text) :
    (s.regroup t).head? = (s.ungroup t).head? := by
  induction t using runs_induction s with
  | nil => rw [regroup_nil]; rfl
  | other c t hc ih =>
    rw [regroup_cons hc, ungroup_cons_of_ne (ne_grouping_of_isNumeric hc), List.head?_cons,
      List.head?_cons]
  | number run rest hrun hrest ih =>
    rw [regroup_run hrun hrest, ungroup_append, List.head?_append, List.head?_append, ih,
      head?_group]

/-- No number of the second text goes on from the first. -/
theorem regroup_append_of_stopsAt (t : Text) (hu : StopsAt s.isNumeric u) :
    s.regroup (t ++ u) = s.regroup t ++ s.regroup u := by
  induction t using runs_induction s with
  | nil => rw [regroup_nil]; rfl
  | other c t hc ih => rw [List.cons_append, regroup_cons hc, regroup_cons hc, ih, List.cons_append]
  | number run rest hrun hrest ih =>
    have hstop : StopsAt s.isNumeric (rest ++ u) := by
      cases rest with
      | nil => exact hu
      | cons c rest => exact stopsAt_cons.2 (stopsAt_cons.1 hrest)
    rw [List.append_assoc, regroup_run hrun hstop, regroup_run hrun hrest, ih, List.append_assoc]

/-- No number of the first text goes on in the second. -/
theorem regroup_append_of_getLast? (ht : ∀ c, t.getLast? = some c → s.isNumeric c = false)
    (u : Text) : s.regroup (t ++ u) = s.regroup t ++ s.regroup u := by
  cases t using List.reverseRecOn with
  | nil => rw [regroup_nil]; rfl
  | append_singleton t c =>
    have hc : s.isNumeric c = false := ht c List.getLast?_concat
    have hsplit : ∀ v : Text, s.regroup (t ++ c :: v) = s.regroup t ++ c :: s.regroup v := by
      intro v
      rw [regroup_append_of_stopsAt t (stopsAt_cons.2 hc), regroup_cons hc]
    rw [List.append_assoc, List.singleton_append, hsplit, hsplit, regroup_nil, List.append_assoc,
      List.singleton_append]

/-! ### Short formulas -/

theorem inThrees_eq_self {separator : Char} (h : t.length ≤ 3) : inThrees separator t = t := by
  fun_cases inThrees separator t with
  | case1 a b c d rest =>
    simp only [List.length_cons] at h
    omega
  | case2 => rfl

theorem groupUnsigned_eq_self (h : t.length ≤ 3) : s.groupUnsigned t = t := by
  have hle := (List.takeWhile_sublist (l := t) (· != s.decimal)).length_le
  rw [groupUnsigned, groupInteger, inThrees_eq_self (by rw [List.length_reverse]; omega),
    List.reverse_reverse, List.takeWhile_append_dropWhile]

theorem group_eq_ungroup (h : (s.ungroup t).length ≤ 3) : s.group t = s.ungroup t := by
  rcases minus_or_not (s.ungroup t) with ⟨u, hu⟩ | hne
  · rw [hu, List.length_cons] at h
    rw [group_of_minus hu, groupUnsigned_eq_self (by omega), hu]
  · rw [group_of_ne_minus hne, groupUnsigned_eq_self h]

/-- Three characters are not grouped. -/
theorem regroup_eq_ungroup (h : (s.ungroup t).length ≤ 3) : s.regroup t = s.ungroup t := by
  induction t using runs_induction s with
  | nil => rw [regroup_nil]; rfl
  | other c t hc ih =>
    rw [ungroup_cons_of_ne (ne_grouping_of_isNumeric hc)] at h ⊢
    rw [List.length_cons] at h
    rw [regroup_cons hc, ih (by omega)]
  | number run rest hrun hrest ih =>
    rw [ungroup_append, List.length_append] at h
    rw [regroup_run hrun hrest, group_eq_ungroup (by omega), ih (by omega), ungroup_append]

end Separators

end PocketCalculator
