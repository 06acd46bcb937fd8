import PocketCalculator.Number.Plain
import PocketCalculator.Proofs.Expression.Literal
import PocketCalculator.Proofs.Formula.Ending
import PocketCalculator.Proofs.Number.Parentheses

/-!
# Typed texts as expressions

What the readers of an expression see of a typed text: no blank, no power, no name, and numbers
with at most one point.
-/

namespace PocketCalculator

open Ending Expression

variable {e : Ending} {c : Char} {count : Nat} {t u : Text}

/-- The expression that a bare text stands for. -/
def expressionOf (t : Text) : Text :=
  t.map (Separators.plainChar {})

@[simp] theorem expressionOf_nil : expressionOf [] = [] := rfl

@[simp] theorem expressionOf_cons (c : Char) (t : Text) :
    expressionOf (c :: t) = Separators.plainChar {} c :: expressionOf t := rfl

/-! ### Characters -/

theorem isBlank_plainChar (h : e.admits c) : isBlank (Separators.plainChar {} c) = false := by
  have hnot := of_admits (p := fun c => !isBlank (Separators.plainChar {} c)) h
    fun e => by cases e <;> decide
  simpa using hnot

theorem isLiteralChar_plainChar (h : e.admits c) :
    isLiteralChar (Separators.plainChar {} c) = isLiteralChar c := by
  have hsame := of_admits
    (p := fun c => isLiteralChar (Separators.plainChar {} c) == isLiteralChar c) h
    fun e => by cases e <;> decide
  simpa using hsame

theorem plainChar_of_isLiteralChar (hc : isLiteralChar c) : Separators.plainChar {} c = c := by
  rw [isLiteralChar, Bool.or_eq_true, beq_iff_eq] at hc
  rcases hc with hc | rfl
  · obtain ⟨d, rfl⟩ := exists_digitChar_eq hc
    revert d
    decide
  · rfl

/-! ### Literals -/

theorem unflawed_of_not_isParen (h : ∀ c ∈ u, isParen c = false) : Unflawed e u := by
  induction u generalizing e with
  | nil => trivial
  | cons c u ih =>
    obtain ⟨hc, hu⟩ := List.forall_mem_cons.1 h
    rw [isParen, Bool.or_eq_false_iff] at hc
    refine ⟨?_, ih hu⟩
    rw [isFlaw, hc.1, hc.2]
    rfl

theorem isParen_of_isLiteralChar (hc : isLiteralChar c) : isParen c = false := by
  rw [isLiteralChar, Bool.or_eq_true, beq_iff_eq] at hc
  rcases hc with hc | rfl
  · exact Separators.isParen_of_isDigit hc
  · rfl

/-- Whether a number is being typed. -/
def Ending.isNumber (e : Ending) : Bool :=
  e == integer || e == point || e == fraction

/-- A number goes on with at most one point, and with none behind its point. -/
theorem number_run (he : e.isNumber) (hu : ∀ c ∈ u, isLiteralChar c) (ht : TypedFrom e count u) :
    (u.foldl after e).isNumber ∧ u.count '.' ≤ if e = .integer then 1 else 0 := by
  induction u generalizing e count with
  | nil => exact ⟨he, Nat.zero_le _⟩
  | cons c u ih =>
    obtain ⟨hc, hrest⟩ := List.forall_mem_cons.1 hu
    obtain ⟨hadmits, -, ht⟩ := ht
    rw [isLiteralChar, Bool.or_eq_true, beq_iff_eq] at hc
    rcases hc with hc | rfl
    · have hne : c ≠ '.' := by
        rintro rfl
        exact absurd hc (by decide)
      have hafter : (e.after c).isNumber ∧ (e.after c = .integer ↔ e = .integer) := by
        rw [after_digit hc]
        revert he
        cases e <;> decide
      obtain ⟨hnumber, hcount⟩ := ih hafter.1 hrest ht
      rw [List.count_cons_of_ne hne]
      simp only [hafter.2] at hcount
      exact ⟨hnumber, hcount⟩
    · obtain ⟨hnumber, hcount⟩ := ih (e := .point) rfl hrest ht
      rw [List.count_cons_self, admits_point.1 hadmits]
      exact ⟨hnumber, Nat.succ_le_succ hcount⟩

/-! ### Texts that are still to be read -/

/-- A typed text behind what ends so, in which `count` open parentheses are closed. -/
structure Pending (e : Ending) (count : Nat) (t : Text) : Prop where
  typed : TypedFrom e count t
  closes : t.foldl openAfter count = 0

theorem Pending.count_eq_zero (h : Pending e count []) : count = 0 := h.closes

theorem Pending.admits (h : Pending e count (c :: t)) : e.admits c := h.typed.1

theorem Pending.tail (h : Pending e count (c :: t)) :
    Pending (e.after c) (openAfter count c) t := ⟨h.typed.2.2, h.closes⟩

theorem Pending.tail_of_not_isParen (h : Pending e count (c :: t)) (hc : isParen c = false) :
    Pending (e.after c) count t := by
  have htail := h.tail
  rwa [openAfter_of_not_isParen hc] at htail

theorem isParen_of_isInfix (hc : isInfix c) : isParen c = false := by
  rcases exists_glyph_of_isInfix hc with rfl | rfl | rfl | rfl <;> rfl

theorem Pending.tail_of_isInfix (h : Pending e count (c :: t)) (hc : isInfix c) :
    Pending .operator count t := by
  have htail := h.tail_of_not_isParen (isParen_of_isInfix hc)
  rwa [after_of_isInfix hc] at htail

theorem Pending.append (h : Pending e count (t ++ u)) :
    TypedFrom e count t ∧ Pending (t.foldl after e) (t.foldl openAfter count) u := by
  obtain ⟨ht, hu⟩ := typedFrom_append.1 h.typed
  exact ⟨ht, hu, List.foldl_append.symm.trans h.closes⟩

/-- Behind a group or a percent sign no number goes on. -/
theorem Pending.stopsAt_literal (h : Pending e count t) (he : e = .close ∨ e = .percent) :
    StopsAt isLiteralChar t := by
  cases t with
  | nil => exact stopsAt_nil
  | cons c t =>
    refine stopsAt_cons.2 (Bool.eq_false_iff.2 fun hc => ?_)
    rw [isLiteralChar, Bool.or_eq_true, beq_iff_eq] at hc
    rcases hc with hc | rfl
    · obtain ⟨hclose, hpercent⟩ := (admits_digit hc).1 h.admits
      exact he.elim hclose hpercent
    · have hinteger := admits_point.1 h.admits
      rw [hinteger] at he
      exact absurd he (by decide)

/-- The digits and points at the start of a typed text stand for themselves. -/
theorem takeWhile_expressionOf (h : TypedFrom e count t) :
    (expressionOf t).takeWhile isLiteralChar = t.takeWhile isLiteralChar ∧
      (expressionOf t).dropWhile isLiteralChar = expressionOf (t.dropWhile isLiteralChar) := by
  induction t generalizing e count with
  | nil => exact ⟨rfl, rfl⟩
  | cons c t ih =>
    have hsame := isLiteralChar_plainChar h.1
    rw [expressionOf_cons]
    by_cases hc : isLiteralChar c
    · rw [plainChar_of_isLiteralChar hc, List.takeWhile_cons_of_pos hc,
        List.takeWhile_cons_of_pos hc, List.dropWhile_cons_of_pos hc,
        List.dropWhile_cons_of_pos hc, (ih h.2.2).1, (ih h.2.2).2]
      exact ⟨rfl, rfl⟩
    · have hplain : ¬ isLiteralChar (Separators.plainChar {} c) := by rwa [hsame]
      rw [List.takeWhile_cons_of_neg hc, List.takeWhile_cons_of_neg hplain,
        List.dropWhile_cons_of_neg hc, List.dropWhile_cons_of_neg hplain]
      exact ⟨rfl, rfl⟩

/-- There is nothing to skip. -/
theorem Pending.skipBlank_eq {cur : Cursor} (h : Pending e count t)
    (hcur : cur.rest = expressionOf t) : cur.skipBlank = cur := by
  have hstop : StopsAt isBlank cur.rest := by
    rw [hcur]
    cases t with
    | nil => exact stopsAt_nil
    | cons c t => exact stopsAt_cons.2 (isBlank_plainChar h.admits)
  rw [Cursor.skipBlank, Cursor.skipWhile, Cursor.after, hstop.takeWhile_eq_nil, hstop.dropWhile_eq]
  rfl

end PocketCalculator
