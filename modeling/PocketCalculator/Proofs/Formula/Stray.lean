import PocketCalculator.Proofs.Formula.Balance

/-!
# Dropping what closes nothing

The closing parentheses that close nothing are the fewest that have to go: every text without them
keeps at most as much (`Closes.length_le`). All other characters stay, and so does the number of
open parentheses.
-/

namespace PocketCalculator

variable {c : Char} {count room : Nat} {t u : Text}

/-! ### What stays -/

theorem filter_dropStrayFrom (count : Nat) (t : Text) :
    (dropStrayFrom count t).filter (· != ')') = t.filter (· != ')') := by
  fun_induction dropStrayFrom count t with
  | case1 => rfl
  | case2 rest ih => exact ih
  | case3 count c rest _ ih => rw [List.filter_cons, List.filter_cons, ih]

/-- A closing parenthesis that closes nothing does not count. -/
theorem foldl_openAfter_dropStrayFrom (count : Nat) (t : Text) :
    (dropStrayFrom count t).foldl openAfter count = t.foldl openAfter count := by
  fun_induction dropStrayFrom count t with
  | case1 => rfl
  | case2 rest ih => exact ih
  | case3 count c rest _ ih => exact ih

theorem unmatched_dropStray (t : Text) : unmatched (dropStray t) = unmatched t :=
  foldl_openAfter_dropStrayFrom 0 t

theorem closes_dropStray (t : Text) : Closes 0 (dropStray t) :=
  closes_dropStrayFrom 0 t

/-- Nothing is dropped exactly if every closing parenthesis closes one. -/
theorem dropStray_eq_self_iff : dropStray t = t ↔ Closes 0 t := by
  constructor
  · intro h
    rw [← h]
    exact closes_dropStray t
  · exact dropStrayFrom_eq_self

/-! ### Nothing more has to go -/

theorem sub_one_le_openAfter (count : Nat) (c : Char) : count - 1 ≤ openAfter count c := by
  unfold openAfter
  split
  · omega
  · split <;> omega

/-- A character of both texts brings the one no further ahead of the other. -/
theorem openAfter_sub_openAfter_le (h : c = ')' → 0 < count) (room : Nat) :
    openAfter room c - openAfter count c ≤ room - count := by
  unfold openAfter
  split
  · omega
  · split
    · rename_i hclose
      have hpos := h hclose
      omega
    · exact le_rfl

/-- A text whose closing parentheses all close one, with `room` open before it, gets ahead of what
is left of a longer text at most by the parentheses that it finds open and the other does not. -/
theorem Closes.length_le (h : Closes room u) (hu : u.Sublist t) (count : Nat) :
    u.length ≤ (dropStrayFrom count t).length + (room - count) := by
  fun_induction dropStrayFrom count t generalizing room u with
  | case1 count =>
    rw [List.eq_nil_of_sublist_nil hu]
    exact Nat.zero_le _
  | case2 rest ih =>
    cases hu with
    | cons _ hrest => exact ih h hrest
    | cons_cons _ hrest =>
      -- what is dropped here can stay only where one more is open
      rename_i v
      have hpos : 0 < room := h.1 rfl
      have hlength : v.length ≤ (dropStrayFrom 0 rest).length + (room - 1 - 0) := ih h.2 hrest
      rw [List.length_cons]
      omega
  | case3 count c rest hstray ih =>
    rw [List.length_cons]
    cases hu with
    | cons _ hrest =>
      -- leaving a closing parenthesis out saves one for later, and costs its own place
      have hlength := ih h hrest
      have hafter := sub_one_le_openAfter count c
      omega
    | cons_cons _ hrest =>
      have hlength := ih h.2 hrest
      have hkept : c = ')' → 0 < count := fun hclose =>
        Nat.pos_of_ne_zero fun hzero => hstray hzero hclose
      have hafter := openAfter_sub_openAfter_le hkept room
      rw [List.length_cons]
      omega

/-- Dropping the closing parentheses that close nothing keeps all other characters of a text, in
their order, and leaves a text in which no prefix has more closing than opening ones. No subsequence
of the text like that is longer, whatever else it leaves out. The number of open parentheses is the
same before and after, and then it is what is opened less what is closed. Nothing is dropped exactly
from a text that is like that already, so doing it again changes nothing. -/
theorem dropStray_maximal (t : Text) :
    (dropStray t).Sublist t ∧ (dropStray t).filter (· != ')') = t.filter (· != ')') ∧
      (∀ u, u <+: dropStray t → u.count ')' ≤ u.count '(') ∧
      (∀ u, u.Sublist t → (∀ v, v <+: u → v.count ')' ≤ v.count '(') →
        u.length ≤ (dropStray t).length) ∧
      unmatched (dropStray t) = unmatched t ∧
      unmatched (dropStray t) + (dropStray t).count ')' = (dropStray t).count '(' ∧
      (dropStray t = t ↔ ∀ u, u <+: t → u.count ')' ≤ u.count '(') ∧
      dropStray (dropStray t) = dropStray t := by
  have hcloses : Closes 0 (dropStray t) := closes_dropStray t
  have hcount : unmatched (dropStray t) + (dropStray t).count ')' = 0 + (dropStray t).count '(' :=
    hcloses.foldl_add_count
  refine ⟨dropStrayFrom_sublist 0 t, filter_dropStrayFrom 0 t, closes_zero_iff.1 hcloses,
    fun u hu hprefix => ?_, unmatched_dropStray t, by omega, ?_, dropStray_eq_self_iff.2 hcloses⟩
  · exact (closes_zero_iff.2 hprefix).length_le hu 0
  · rw [dropStray_eq_self_iff, closes_zero_iff]

/-- Two closing parentheses go, at the start and behind a group, and an open one stays. -/
theorem dropStray_maximal_mixed :
    let t := ")1+(2))×(3".toList
    dropStray t = "1+(2)×(3".toList ∧ unmatched t = 1 ∧ dropStray (dropStray t) = dropStray t ∧
      ∀ u, u.Sublist t → (∀ v, v <+: u → v.count ')' ≤ v.count '(') → u.length ≤ 8 := by
  intro t
  obtain ⟨-, -, -, hlongest, -, -, -, hagain⟩ := dropStray_maximal t
  exact ⟨by decide, by decide, hagain, hlongest⟩

end PocketCalculator
