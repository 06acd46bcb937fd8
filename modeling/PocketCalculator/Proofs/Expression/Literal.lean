import PocketCalculator.Expression.Evaluate
import PocketCalculator.Proofs.Text.Runs

/-!
# Literals

The runs that spell a fraction are those of digits and points with at least one digit and at most
one point (`ofLiteral?_run`, `exists_literal`).
-/

namespace PocketCalculator

namespace Expression

/-- A literal: digits and points, at least one digit and at most one point. -/
structure Literal where
  run : Text
  isLiteralChar_of_mem : ∀ c ∈ run, isLiteralChar c
  exists_isDigit : ∃ c ∈ run, c.isDigit
  count_point_le : run.count '.' ≤ 1

/-- The fraction that a literal spells: the digits before the point and those after it. -/
def Literal.decimal (l : Literal) : Decimal :=
  .ofDigits (l.run.takeWhile Char.isDigit) ((l.run.dropWhile Char.isDigit).drop 1)

/-- Every literal is accepted, with the fraction that it spells. -/
theorem Literal.ofLiteral?_run (l : Literal) : Decimal.ofLiteral? l.run = some l.decimal := by
  obtain ⟨run, hchars, ⟨d, hd, hdigit⟩, hcount⟩ := l
  have hsplit : run.takeWhile Char.isDigit ++ run.dropWhile Char.isDigit = run :=
    List.takeWhile_append_dropWhile
  unfold Decimal.ofLiteral? Literal.decimal
  dsimp only
  cases hdrop : run.dropWhile Char.isDigit with
  | nil =>
    rw [hdrop, List.append_nil] at hsplit
    have hne : run.takeWhile Char.isDigit ≠ [] := by
      rw [hsplit]
      exact List.ne_nil_of_mem hd
    simp [hne]
  | cons c fraction =>
    have hc : c.isDigit = false := stopsAt_cons.1 (hdrop ▸ stopsAt_dropWhile run)
    rw [hdrop] at hsplit
    obtain rfl : c = '.' := by
      have := hchars c (by rw [← hsplit]; simp)
      simpa [isLiteralChar, hc] using this
    have hpoint : '.' ∉ fraction := by
      rw [← hsplit] at hcount
      simp only [List.count_append, List.count_cons_self] at hcount
      exact List.count_eq_zero.1 (by omega)
    have hfraction : fraction.all Char.isDigit := by
      refine List.all_eq_true.2 fun c hc => ?_
      have h := hchars c (by rw [← hsplit]; simp [hc])
      have hne : c ≠ '.' := fun e => hpoint (e ▸ hc)
      simpa [isLiteralChar, hne] using h
    have hne : ¬ (run.takeWhile Char.isDigit ++ fraction).isEmpty := by
      intro he
      rw [List.isEmpty_iff, List.append_eq_nil_iff] at he
      rw [he.1, he.2, List.nil_append] at hsplit
      rw [← hsplit] at hd
      obtain rfl := List.mem_singleton.1 hd
      exact absurd hdigit (by decide)
    exact if_pos ⟨rfl, hfraction, hne⟩

theorem count_point_eq_zero {t : Text} (h : ∀ c ∈ t, c.isDigit) : t.count '.' = 0 :=
  List.count_eq_zero.2 fun hm => absurd (h _ hm) (by decide)

/-- Digits alone are a literal. -/
theorem exists_run_eq_digits {t : Text} (h : ∀ c ∈ t, c.isDigit) (hne : t ≠ []) :
    ∃ l : Literal, l.run = t := by
  obtain ⟨c, u, rfl⟩ := List.exists_cons_of_ne_nil hne
  refine ⟨⟨c :: u, fun c hc => ?_, ⟨c, by simp, h c (by simp)⟩, ?_⟩, rfl⟩
  · simp [isLiteralChar, h c hc]
  · rw [count_point_eq_zero h]
    omega

/-- Digits around a point are a literal, if there are any. -/
theorem exists_run_eq_point {integer fraction : Text} (hinteger : ∀ c ∈ integer, c.isDigit)
    (hfraction : ∀ c ∈ fraction, c.isDigit) (hne : integer ++ fraction ≠ []) :
    ∃ l : Literal, l.run = integer ++ '.' :: fraction := by
  obtain ⟨d, u, hd⟩ := List.exists_cons_of_ne_nil hne
  have hmem : d ∈ integer ∨ d ∈ fraction := List.mem_append.1 (by rw [hd]; simp)
  have hdigit : d.isDigit := hmem.elim (hinteger d) (hfraction d)
  have hd : d ∈ integer ++ '.' :: fraction := by
    rcases hmem with hd | hd
    · simp [hd]
    · simp [hd]
  refine ⟨⟨_, fun c hc => ?_, ⟨d, hd, hdigit⟩, ?_⟩, rfl⟩
  · rcases List.mem_append.1 hc with hc | hc
    · simp [isLiteralChar, hinteger c hc]
    · rcases List.mem_cons.1 hc with rfl | hc
      · rfl
      · simp [isLiteralChar, hfraction c hc]
  · rw [List.count_append, List.count_cons_self, count_point_eq_zero hinteger,
      count_point_eq_zero hfraction]

theorem exists_run_eq {t : Text} {x : Decimal} (h : Decimal.ofLiteral? t = some x) :
    ∃ l : Literal, l.run = t := by
  have hsplit : t.takeWhile Char.isDigit ++ t.dropWhile Char.isDigit = t :=
    List.takeWhile_append_dropWhile
  have hinteger : ∀ c ∈ t.takeWhile Char.isDigit, c.isDigit := fun c hc =>
    List.mem_takeWhile_imp hc
  unfold Decimal.ofLiteral? at h
  dsimp only at h
  split at h
  · rename_i hdrop
    split at h
    · cases h
    · rename_i hne
      rw [hdrop, List.append_nil] at hsplit
      rw [hsplit] at hinteger hne
      exact exists_run_eq_digits hinteger (by simpa using hne)
  · rename_i c fraction hdrop
    split at h
    · rename_i hc
      obtain ⟨rfl, hfraction, hne⟩ := hc
      rw [← hsplit, hdrop]
      exact exists_run_eq_point hinteger (List.all_eq_true.1 hfraction) (mt List.isEmpty_iff.2 hne)
    · cases h

/-- Nothing but literals is accepted. -/
theorem exists_literal {t : Text} {x : Decimal} (h : Decimal.ofLiteral? t = some x) :
    ∃ l : Literal, l.run = t ∧ l.decimal = x := by
  obtain ⟨l, rfl⟩ := exists_run_eq h
  rw [l.ofLiteral?_run] at h
  exact ⟨l, rfl, Option.some.inj h⟩

end Expression

end PocketCalculator
