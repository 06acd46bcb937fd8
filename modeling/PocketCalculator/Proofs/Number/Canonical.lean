import PocketCalculator.Proofs.Number.Threes

/-!
# Grouped texts are canonical

Grouping, of a single number or of a whole formula, changes grouping separators only, and takes no
notice of those that are there. So it keeps the expression, and grouping twice is grouping once. A
grouped formula has the one form of its numbers in which the integer part is in groups of three
(`regroup_canonical`).
-/

namespace PocketCalculator

namespace CutInThrees

variable {separator : Char} {t : Text}

/-- A first group of one to three digits, and groups of exactly three with a separator before
each. -/
theorem exists_groups (h : CutInThrees separator t) (hne : t ≠ []) :
    ∃ (first : Text) (groups : List Text), t = first ++ groups.flatMap (separator :: ·) ∧
      1 ≤ first.length ∧ first.length ≤ 3 ∧ (∀ group ∈ groups, group.length = 3) ∧
      ∀ group ∈ first :: groups, ∀ c ∈ group, c.isDigit := by
  induction h with
  | short digits hlength hdigit =>
    refine ⟨digits, [], by simp, List.length_pos_iff.2 hne, hlength, by simp, ?_⟩
    simpa using hdigit
  | more t group _ ht hlength hdigit ih =>
    obtain ⟨first, groups, rfl, hpos, hle, hthree, hdigits⟩ := ih ht
    refine ⟨first, groups ++ [group], by simp, hpos, hle, ?_, ?_⟩
    · simpa [or_imp, forall_and] using ⟨hthree, hlength⟩
    · rw [← List.cons_append]
      intro other hother
      rcases List.mem_append.1 hother with hother | hother
      · exact hdigits other hother
      · obtain rfl := List.mem_singleton.1 hother
        exact hdigit

end CutInThrees

namespace Separators

variable {s : Separators} {f : Text → Text} {t u : Text}

/-- Whether a way to display a text is a matter of its grouping separators alone: it changes nothing
else, keeps the expression, and neither separators that are there nor doing it again make a
difference. -/
structure IsGrouping (s : Separators) (f : Text → Text) : Prop where
  ungroup_apply : ∀ t, s.ungroup (f t) = s.ungroup t
  plain_apply : ∀ t, s.plain (f t) = s.plain t
  apply_ungroup : ∀ t, f (s.ungroup t) = f t
  apply_apply : ∀ t, f (f t) = f t

theorem plain_congr (h : s.ungroup t = s.ungroup u) : s.plain t = s.plain u :=
  congrArg (List.map s.plainChar) h

/-- Changing separators only and taking no notice of them is enough. -/
theorem isGrouping_of (hchange : ∀ t, s.ungroup (f t) = s.ungroup t)
    (hnotice : ∀ t, f (s.ungroup t) = f t) : s.IsGrouping f where
  ungroup_apply := hchange
  plain_apply t := plain_congr (hchange t)
  apply_ungroup := hnotice
  apply_apply t := by rw [← hnotice (f t), hchange, hnotice]

theorem isGrouping_regroup (s : Separators) : s.IsGrouping s.regroup :=
  isGrouping_of s.ungroup_regroup s.regroup_ungroup

theorem isGrouping_group (s : Separators) : s.IsGrouping s.group :=
  isGrouping_of s.ungroup_group s.group_ungroup

/-- With accepted separators, grouping the numbers of any text, or a single number, changes grouping
separators only, keeps the expression, takes no notice of separators that are there, and is done
once. In the grouped text each number starts with an integer part that is empty or a group of one to
three digits and any groups of exactly three digits with a grouping separator before each, and no
grouping separator stands behind that part. -/
theorem regroup_canonical (hs : s.check = .ok ()) :
    s.IsGrouping s.regroup ∧ s.IsGrouping s.group ∧
      ∀ t run, s.IsRunOf run (s.regroup t) →
        let integer := run.takeWhile (· != s.decimal)
        (integer = [] ∨ ∃ (first : Text) (groups : List Text),
          integer = first ++ groups.flatMap (s.grouping :: ·) ∧
            1 ≤ first.length ∧ first.length ≤ 3 ∧ (∀ group ∈ groups, group.length = 3) ∧
            ∀ group ∈ first :: groups, ∀ c ∈ group, c.isDigit) ∧
        s.grouping ∉ run.dropWhile (· != s.decimal) := by
  have hs := check_eq_ok_iff.1 hs
  refine ⟨s.isGrouping_regroup, s.isGrouping_group, ?_⟩
  intro t run hrun integer
  obtain ⟨hcut, hfraction⟩ := (grouped_iff hs).1 (s.grouped_regroup t) run hrun
  refine ⟨?_, hfraction⟩
  by_cases hne : integer = []
  · exact Or.inl hne
  · exact Or.inr (hcut.exists_groups hne)

/-- Two numbers around a sign, the separators at the wrong places in both. -/
theorem regroup_canonical_misplaced :
    let s : Separators := ⟨',', '.'⟩
    let t := "12.34567,8.90×.1234".toList
    let run := "1.234.567,890".toList
    s.regroup t = run ++ "×1.234".toList ∧ s.regroup (s.regroup t) = s.regroup t ∧
      s.plain (s.regroup t) = s.plain t ∧ s.IsRunOf run (s.regroup t) ∧
      s.grouping ∉ run.dropWhile (· != s.decimal) := by
  intro s t run
  obtain ⟨hlaws, -, hruns⟩ := regroup_canonical (s := s) (by decide +kernel)
  have hregroup : s.regroup t = run ++ "×1.234".toList := by decide +kernel
  have hstop : StopsAt s.isNumeric "×1.234".toList := stopsAt_cons.2 (by decide +kernel)
  have hnumeric : ∀ c ∈ run, s.isNumeric c := List.all_eq_true.1 (by decide +kernel)
  have hrun : s.IsRunOf run (s.regroup t) := ⟨[], "×1.234".toList, hregroup, hnumeric, nofun, hstop⟩
  exact ⟨hregroup, hlaws.apply_apply t, hlaws.plain_apply t, hrun, (hruns t run hrun).2⟩

end Separators

end PocketCalculator
