import PocketCalculator.Proofs.Number.Grouped

/-!
# What grouped numbers look like

An integer part is cut in threes if it is up to three digits, or what is cut in threes with a
separator and three more digits behind it. Grouping leaves a number as it is exactly if its integer
part is cut in threes and no grouping separator stands behind that (`group_eq_self_iff`), and it
leaves a formula as it is exactly if this holds of all its numbers (`grouped_iff`).
-/

namespace PocketCalculator

/-- Whether an integer part is cut in threes from the right. -/
inductive CutInThrees (separator : Char) : Text → Prop where
  | short (digits : Text) (length_le : digits.length ≤ 3) (isDigit : ∀ c ∈ digits, c.isDigit) :
    CutInThrees separator digits
  /-- A separator and three digits behind at least one digit. -/
  | more (t group : Text) (cut : CutInThrees separator t) (ne_nil : t ≠ [])
    (length_eq : group.length = 3) (isDigit : ∀ c ∈ group, c.isDigit) :
    CutInThrees separator (t ++ separator :: group)

namespace CutInThrees

variable {separator c : Char} {t before after : Text}

theorem isDigit_of_getLast? (h : CutInThrees separator t) (hc : t.getLast? = some c) :
    c.isDigit := by
  cases h with
  | short digits _ hdigit => exact hdigit c (List.mem_of_getLast? hc)
  | more t group _ _ hlength hdigit =>
    have hne : group ≠ [] := by
      intro hnil
      simp [hnil] at hlength
    rw [List.getLast?_append, List.getLast?_cons, List.getLast?_eq_some_getLast hne] at hc
    simp only [Option.getD_some, Option.some_or, Option.some.injEq] at hc
    exact hdigit c (hc ▸ List.getLast_mem hne)

/-- Every separator stands between two digits: none leads, none trails, and none is doubled. -/
theorem between (h : CutInThrees separator t) (hseparator : separator.isDigit = false)
    (ht : t = before ++ separator :: after) :
    before.getLast?.any Char.isDigit ∧ after.head?.any Char.isDigit := by
  have hnot : ∀ {u : Text}, (∀ c ∈ u, c.isDigit) → separator ∉ u := by
    intro u hu hmem
    have hdigit := hu separator hmem
    rw [hseparator] at hdigit
    cases hdigit
  induction h generalizing before after with
  | short digits _ hdigit => exact absurd (by simp [ht]) (hnot hdigit)
  | more u group hcut hne hlength hdigit ih =>
    have hlast : u.getLast?.any Char.isDigit := by
      rw [List.getLast?_eq_some_getLast hne]
      exact hcut.isDigit_of_getLast? (List.getLast?_eq_some_getLast hne)
    have hhead : group.head?.any Char.isDigit := by
      obtain ⟨a, b, c, rfl⟩ := List.length_eq_three.1 hlength
      simpa using hdigit a (by simp)
    rcases List.append_eq_append_iff.1 ht with ⟨v, rfl, hv⟩ | ⟨v, rfl, hv⟩
    · cases v with
      | nil =>
        obtain rfl : group = after := by simpa using hv
        exact ⟨by simpa using hlast, hhead⟩
      | cons c v =>
        obtain ⟨-, rfl⟩ := List.cons.inj hv
        exact absurd (by simp) (hnot hdigit)
    · cases v with
      | nil =>
        obtain rfl : after = group := by simpa using hv
        exact ⟨by simpa using hlast, hhead⟩
      | cons c v =>
        obtain ⟨rfl, rfl⟩ := List.cons.inj hv
        obtain ⟨hbefore, hafter⟩ := ih rfl
        refine ⟨hbefore, ?_⟩
        cases v with
        | nil => cases hafter
        | cons d v => exact hafter

end CutInThrees

namespace Separators

variable {s : Separators} {c : Char} {run t u v w : Text}

/-- Whether a number is cut in threes before its first decimal separator and nowhere behind it. -/
def IsCut (s : Separators) (run : Text) : Prop :=
  CutInThrees s.grouping (run.takeWhile (· != s.decimal)) ∧
    s.grouping ∉ run.dropWhile (· != s.decimal)

/-- Whether a text is one of the numbers of a formula, its longest runs of numeric characters. -/
def IsRunOf (s : Separators) (run formula : Text) : Prop :=
  ∃ before after, formula = before ++ run ++ after ∧ (∀ c ∈ run, s.isNumeric c) ∧
    (∀ c, before.getLast? = some c → s.isNumeric c = false) ∧ StopsAt s.isNumeric after

theorem isCut_nil (s : Separators) : s.IsCut [] := ⟨.short [] (by simp) (by simp), by simp⟩

/-! ### Integer parts -/

theorem cutInThrees_groupInteger (s : Separators) (ht : ∀ c ∈ t, c.isDigit) :
    CutInThrees s.grouping (s.groupInteger t) := by
  have hreverse : ∀ c ∈ t.reverse, c.isDigit := by simpa using ht
  unfold groupInteger
  generalize t.reverse = r at hreverse
  fun_induction inThrees s.grouping r with
  | case1 a b c d rest ih =>
    have hsplit : (a :: b :: c :: s.grouping :: inThrees s.grouping (d :: rest)).reverse =
        (inThrees s.grouping (d :: rest)).reverse ++ s.grouping :: [c, b, a] := by simp
    rw [hsplit]
    simp only [List.forall_mem_cons] at hreverse ih
    refine .more _ _ (ih hreverse.2.2.2) ?_ rfl (by simp [hreverse])
    intro hnil
    have hhead := head?_inThrees s.grouping (d :: rest)
    rw [List.reverse_eq_nil_iff.1 hnil] at hhead
    cases hhead
  | case2 short hshort =>
    refine .short _ ?_ (by simpa using hreverse)
    have hlength : short.length < 4 := by
      by_contra hlong
      obtain ⟨a, b, c, d, rest, rfl⟩ : ∃ a b c d rest, short = a :: b :: c :: d :: rest := by
        rcases short with _ | ⟨a, _ | ⟨b, _ | ⟨c, _ | ⟨d, rest⟩⟩⟩⟩
        · simp at hlong
        · simp at hlong
        · simp at hlong
        · simp at hlong
        · exact ⟨a, b, c, d, rest, rfl⟩
      exact hshort a b c d rest rfl
    rw [List.length_reverse]
    omega

theorem groupInteger_append (s : Separators) (ht : t ≠ []) (hu : u.length = 3) :
    s.groupInteger (t ++ u) = s.groupInteger t ++ s.grouping :: u := by
  obtain ⟨a, b, c, rfl⟩ := List.length_eq_three.1 hu
  obtain ⟨d, rest, hrest⟩ := List.exists_cons_of_ne_nil (mt List.reverse_eq_nil_iff.1 ht)
  simp [groupInteger, hrest, inThrees]

theorem groupInteger_ungroup (hs : s.Accepted) (h : CutInThrees s.grouping t) :
    s.groupInteger (s.ungroup t) = t := by
  have hdigits : ∀ u : Text, (∀ c ∈ u, c.isDigit) → s.ungroup u = u := fun u hu =>
    ungroup_eq_self fun hmem => hs.ne_grouping (isReserved_of_isDigit (hu _ hmem)) rfl
  induction h with
  | short digits hlength hdigit =>
    rw [hdigits digits hdigit, groupInteger, inThrees_eq_self (by simpa using hlength),
      List.reverse_reverse]
  | more t group _ hne hlength hdigit ih =>
    have hungroup : s.ungroup (t ++ s.grouping :: group) = s.ungroup t ++ group := by
      rw [ungroup_append, ungroup, ungroup, List.filter_cons_of_neg (by simp), ← ungroup,
        ← ungroup, hdigits group hdigit]
    have hsome : s.ungroup t ≠ [] := by
      intro hnil
      rw [hnil] at ih
      exact hne ih.symm
    rw [hungroup, groupInteger_append s hsome hlength, ih]

/-- Digits and separators are cut in threes exactly if grouping leaves them as they are. -/
theorem groupInteger_eq_self_iff (hs : s.Accepted) (ht : ∀ c ∈ t, c.isDigit ∨ c = s.grouping) :
    s.groupInteger (s.ungroup t) = t ↔ CutInThrees s.grouping t := by
  constructor
  · intro h
    rw [← h]
    refine cutInThrees_groupInteger s fun c hc => ?_
    obtain ⟨hmem, hne⟩ := mem_ungroup.1 hc
    exact (ht c hmem).resolve_right hne
  · exact groupInteger_ungroup hs

/-! ### Numbers -/

theorem stopsAt_ungroup_dropWhile (hs : s.Accepted) (run : Text) :
    StopsAt (· != s.decimal) (s.ungroup (run.dropWhile (· != s.decimal))) := by
  have hstop : StopsAt (· != s.decimal) (run.dropWhile (· != s.decimal)) := stopsAt_dropWhile run
  cases hdrop : run.dropWhile (· != s.decimal) with
  | nil => exact stopsAt_nil
  | cons c u =>
    obtain rfl : c = s.decimal := by simpa [hdrop] using hstop
    rw [ungroup_cons_of_ne hs.1]
    exact stopsAt_cons.2 (by simp)

/-- The parts of a number are grouped apart. -/
theorem group_eq_append (hs : s.Accepted) (hrun : ∀ c ∈ run, s.isNumeric c) :
    s.group run = s.groupInteger (s.ungroup (run.takeWhile (· != s.decimal))) ++
      s.ungroup (run.dropWhile (· != s.decimal)) := by
  have hinteger : ∀ c ∈ s.ungroup (run.takeWhile (· != s.decimal)), (c != s.decimal) = true := by
    intro c hc
    have hmem := (mem_ungroup.1 hc).1
    exact List.mem_takeWhile_imp (p := (· != s.decimal)) hmem
  have hfraction := stopsAt_ungroup_dropWhile hs run
  have hungroup : s.ungroup run = s.ungroup (run.takeWhile (· != s.decimal)) ++
      s.ungroup (run.dropWhile (· != s.decimal)) := by
    rw [← ungroup_append, List.takeWhile_append_dropWhile]
  rw [hs.group_eq hrun, groupUnsigned, hungroup, takeWhile_run hinteger hfraction,
    dropWhile_run hinteger hfraction]

/-- Grouping leaves exactly those numbers as they are that are cut in threes. -/
theorem group_eq_self_iff (hs : s.Accepted) (hrun : ∀ c ∈ run, s.isNumeric c) :
    s.group run = run ↔ s.IsCut run := by
  have hdigits : ∀ c ∈ run.takeWhile (· != s.decimal), c.isDigit ∨ c = s.grouping := by
    intro c hc
    have hne : c ≠ s.decimal := by simpa using List.mem_takeWhile_imp hc
    simpa [isNumeric, hne] using hrun c ((List.takeWhile_sublist _).mem hc)
  have hsplit : run.takeWhile (· != s.decimal) ++ run.dropWhile (· != s.decimal) = run :=
    List.takeWhile_append_dropWhile
  rw [IsCut, ← groupInteger_eq_self_iff hs hdigits, group_eq_append hs hrun]
  constructor
  · intro h
    -- neither side has a decimal separator in its first part, and both second parts start with one
    have hinteger : ∀ c ∈ s.groupInteger (s.ungroup (run.takeWhile (· != s.decimal))),
        (c != s.decimal) = true := by
      intro c hc
      by_cases hgrouping : c = s.grouping
      · simpa [hgrouping] using hs.1.symm
      · have hmem := mem_ungroup.2 ⟨hc, hgrouping⟩
        rw [ungroup_groupInteger, ungroup_ungroup] at hmem
        exact List.mem_takeWhile_imp (p := (· != s.decimal)) (mem_ungroup.1 hmem).1
    have htake : ∀ c ∈ run.takeWhile (· != s.decimal), (c != s.decimal) = true := fun c hc =>
      List.mem_takeWhile_imp (p := (· != s.decimal)) hc
    obtain ⟨h₁, h₂⟩ := run_unique hinteger htake (stopsAt_ungroup_dropWhile hs run)
      (stopsAt_dropWhile run) (h.trans hsplit.symm)
    refine ⟨h₁, fun hmem => ?_⟩
    rw [← h₂] at hmem
    exact (mem_ungroup.1 hmem).2 rfl
  · rintro ⟨hinteger, hfraction⟩
    rw [hinteger, ungroup_eq_self hfraction, hsplit]

/-- Every grouping separator of a number that is cut in threes stands between two digits. -/
theorem IsCut.between (h : s.IsCut run) (hs : s.Accepted) (hrun : run = u ++ s.grouping :: v) :
    u.getLast?.any Char.isDigit ∧ v.head?.any Char.isDigit := by
  obtain ⟨hcut, hfraction⟩ := h
  have hdigit : s.grouping.isDigit = false :=
    Bool.eq_false_iff.2 fun hc => hs.ne_grouping (isReserved_of_isDigit hc) rfl
  have hne : (s.grouping != s.decimal) = true := by simpa using hs.1.symm
  -- the separator is one of the integer part
  have hu : ∀ c ∈ u, (c != s.decimal) = true := by
    by_contra hex
    have hdrop : s.grouping ∈ run.dropWhile (· != s.decimal) := by
      rw [hrun, List.dropWhile_append, if_neg]
      · simp
      · intro hempty
        rw [List.isEmpty_iff, List.dropWhile_eq_nil_iff] at hempty
        exact hex hempty
    exact hfraction hdrop
  rw [hrun, List.takeWhile_append_of_pos hu, List.takeWhile_cons, if_pos hne] at hcut
  obtain ⟨hbefore, hafter⟩ := hcut.between hdigit rfl
  refine ⟨hbefore, ?_⟩
  cases v with
  | nil => cases hafter
  | cons c v =>
    rw [List.takeWhile_cons] at hafter
    split at hafter
    · exact hafter
    · cases hafter

/-! ### Formulas -/

/-- Texts that start the same text, end with no grouping separator and differ in grouping
separators only are the same. -/
theorem eq_of_append_eq (e : t ++ v = u ++ w) (hungroup : s.ungroup t = s.ungroup u)
    (ht : t.getLast? ≠ some s.grouping) (hu : u.getLast? ≠ some s.grouping) : t = u := by
  have hnil : ∀ {a b : Text}, s.ungroup a = s.ungroup (a ++ b) →
      (a ++ b).getLast? ≠ some s.grouping → b = [] := by
    intro a b hab hlast
    rw [ungroup_append, List.self_eq_append_right] at hab
    cases b using List.reverseRecOn with
    | nil => rfl
    | append_singleton b c =>
      have hc : c ≠ s.grouping := by simpa [← List.append_assoc] using hlast
      have hmem : c ∈ s.ungroup (b ++ [c]) := mem_ungroup.2 ⟨by simp, hc⟩
      rw [hab] at hmem
      cases hmem
  rcases List.append_eq_append_iff.1 e with ⟨a, rfl, -⟩ | ⟨a, rfl, -⟩
  · rw [hnil hungroup hu, List.append_nil]
  · rw [hnil hungroup.symm ht, List.append_nil]

/-- Parts of a grouped formula are grouped, if no number goes on from the first to the second. -/
theorem Grouped.of_append (h : s.Grouped (t ++ u))
    (ht : ∀ c, t.getLast? = some c → s.isNumeric c = false) : s.Grouped t ∧ s.Grouped u := by
  have hlast : t.getLast? ≠ some s.grouping := fun hc => ne_grouping_of_isNumeric (ht _ hc) rfl
  have hregroup : (s.regroup t).getLast? ≠ some s.grouping := by
    intro hc
    rw [getLast?_regroup] at hc
    exact (mem_ungroup.1 (List.mem_of_getLast? hc)).2 rfl
  have e : s.regroup t ++ s.regroup u = t ++ u := (regroup_append_of_getLast? ht u).symm.trans h
  have ht : s.regroup t = t := eq_of_append_eq e (ungroup_regroup s t) hregroup hlast
  rw [ht, List.append_cancel_left_eq] at e
  exact ⟨ht, e⟩

theorem isNumeric_of_mem_group (hrun : ∀ c ∈ run, s.isNumeric c) (hc : c ∈ s.group run) :
    s.isNumeric c := by
  by_cases hgrouping : c = s.grouping
  · simp [isNumeric, hgrouping]
  · have hmem := mem_ungroup.2 ⟨hc, hgrouping⟩
    rw [ungroup_group] at hmem
    exact hrun c (mem_ungroup.1 hmem).1

theorem stopsAt_regroup (h : StopsAt s.isNumeric t) : StopsAt s.isNumeric (s.regroup t) := by
  cases t with
  | nil => rwa [regroup_nil]
  | cons c t =>
    rw [regroup_cons (stopsAt_cons.1 h)]
    exact stopsAt_cons.2 (stopsAt_cons.1 h)

/-- Grouping leaves exactly those formulas as they are in which every number is cut in threes. -/
theorem grouped_iff (hs : s.Accepted) : s.Grouped t ↔ ∀ run, s.IsRunOf run t → s.IsCut run := by
  constructor
  · rintro h run ⟨before, after, rfl, hrun, hbefore, hafter⟩
    rw [List.append_assoc] at h
    have hrest := (h.of_append hbefore).2
    rw [Grouped, regroup_run hrun hafter] at hrest
    have hgroup := (run_unique (fun c => isNumeric_of_mem_group hrun) hrun (stopsAt_regroup hafter)
      hafter hrest).1
    exact (group_eq_self_iff hs hrun).1 hgroup
  · intro h
    induction t using runs_induction s with
    | nil => exact s.grouped_nil
    | other c t hc ih =>
      rw [Grouped, regroup_cons hc, ih]
      rintro run ⟨before, after, rfl, hrun, hbefore, hafter⟩
      refine h run ⟨c :: before, after, rfl, hrun, fun d hd => ?_, hafter⟩
      rw [List.getLast?_cons, Option.some.injEq] at hd
      cases hlast : before.getLast? with
      | none => simpa [hlast, ← hd] using hc
      | some e => simpa [hlast, ← hd] using hbefore e hlast
    | number run rest hrun hrest ih =>
      have hcut := h run ⟨[], rest, rfl, hrun, by simp, hrest⟩
      rw [Grouped, regroup_run hrun hrest, (group_eq_self_iff hs hrun).2 hcut, ih]
      rintro run' ⟨before, after, rfl, hrun', hbefore, hafter⟩
      cases hlast : before.getLast? with
      | none =>
        -- nothing numeric starts what is behind a number
        obtain rfl := List.getLast?_eq_none_iff.1 hlast
        cases run' with
        | nil => exact isCut_nil s
        | cons c run' =>
          have hc : s.isNumeric c = false := stopsAt_cons.1 hrest
          rw [hrun' c (by simp)] at hc
          cases hc
      | some e =>
        refine h run' ⟨run ++ before, after, by simp, hrun', fun d hd => ?_, hafter⟩
        rw [List.getLast?_append, hlast] at hd
        exact hbefore d (hlast.trans hd)

end Separators

end PocketCalculator
