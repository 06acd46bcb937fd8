import Mathlib.Data.List.DropRight

/-!
# Longest runs

A run of characters, or other items, of a class that is followed by the end or by an item outside
the class is what `takeWhile` takes and `dropWhile` drops.
-/

namespace PocketCalculator

variable {α : Type*} {p : α → Bool}

/-- The list does not go on with an item of the class. -/
def StopsAt (p : α → Bool) (rest : List α) : Prop := ∀ c, rest.head? = some c → p c = false

@[simp] theorem stopsAt_nil : StopsAt p [] := fun _ h => nomatch h

@[simp] theorem stopsAt_cons {c : α} {t : List α} : StopsAt p (c :: t) ↔ p c = false := by
  simp [StopsAt]

theorem stopsAt_dropWhile (t : List α) : StopsAt p (t.dropWhile p) := by
  intro c hc
  have h := List.head?_dropWhile_not p t
  simpa [hc] using h

theorem StopsAt.takeWhile_eq_nil {rest : List α} (h : StopsAt p rest) : rest.takeWhile p = [] := by
  cases rest with
  | nil => rfl
  | cons c t => exact List.takeWhile_cons_of_neg (by simp [stopsAt_cons.1 h])

theorem StopsAt.dropWhile_eq {rest : List α} (h : StopsAt p rest) : rest.dropWhile p = rest := by
  cases rest with
  | nil => rfl
  | cons c t => exact List.dropWhile_cons_of_neg (by simp [stopsAt_cons.1 h])

theorem drop_length_takeWhile (p : α → Bool) (t : List α) :
    t.drop (t.takeWhile p).length = t.dropWhile p := by
  calc t.drop (t.takeWhile p).length
      = (t.takeWhile p ++ t.dropWhile p).drop (t.takeWhile p).length := by
        rw [List.takeWhile_append_dropWhile]
    _ = t.dropWhile p := List.drop_left

theorem takeWhile_run {run rest : List α} (h : ∀ c ∈ run, p c) (hrest : StopsAt p rest) :
    (run ++ rest).takeWhile p = run := by
  rw [List.takeWhile_append_of_pos h, hrest.takeWhile_eq_nil, List.append_nil]

theorem dropWhile_run {run rest : List α} (h : ∀ c ∈ run, p c) (hrest : StopsAt p rest) :
    (run ++ rest).dropWhile p = rest := by
  rw [List.dropWhile_append_of_pos h, hrest.dropWhile_eq]

theorem takeWhile_concat {c : α} (hc : p c = false) (t : List α) :
    (t ++ [c]).takeWhile p = t.takeWhile p := by
  induction t with
  | nil => simp [hc]
  | cons d t ih =>
    by_cases hd : p d
    · rw [List.cons_append, List.takeWhile_cons_of_pos hd, List.takeWhile_cons_of_pos hd, ih]
    · rw [List.cons_append, List.takeWhile_cons_of_neg hd, List.takeWhile_cons_of_neg hd]

theorem dropWhile_concat {c : α} (hc : p c = false) (t : List α) :
    (t ++ [c]).dropWhile p = t.dropWhile p ++ [c] := by
  induction t with
  | nil => simp [hc]
  | cons d t ih =>
    by_cases hd : p d
    · rw [List.cons_append, List.dropWhile_cons_of_pos hd, List.dropWhile_cons_of_pos hd, ih]
    · rw [List.cons_append, List.dropWhile_cons_of_neg hd, List.dropWhile_cons_of_neg hd,
        List.cons_append]

/-- A run that is over, or does not go on, stays the same when more follows. -/
theorem takeWhile_dropWhile_append {t u : List α} (h : t.dropWhile p ≠ [] ∨ StopsAt p u) :
    (t ++ u).takeWhile p = t.takeWhile p ∧ (t ++ u).dropWhile p = t.dropWhile p ++ u := by
  have hrun : ∀ c ∈ t.takeWhile p, p c := fun c hc => List.mem_takeWhile_imp hc
  have hstop : StopsAt p (t.dropWhile p ++ u) := by
    have hfirst : StopsAt p (t.dropWhile p) := stopsAt_dropWhile t
    cases hdrop : t.dropWhile p with
    | nil => exact h.resolve_left fun hne => hne hdrop
    | cons c rest =>
      rw [hdrop] at hfirst
      exact stopsAt_cons.2 (stopsAt_cons.1 hfirst)
  have hsplit : t ++ u = t.takeWhile p ++ (t.dropWhile p ++ u) := by
    rw [← List.append_assoc, List.takeWhile_append_dropWhile]
  constructor
  · rw [hsplit, takeWhile_run hrun hstop]
  · rw [hsplit, dropWhile_run hrun hstop]

/-- A text is a run and what stops it, in one way only. -/
theorem run_unique {run run' rest rest' : List α} (h : ∀ c ∈ run, p c) (h' : ∀ c ∈ run', p c)
    (hrest : StopsAt p rest) (hrest' : StopsAt p rest') (e : run ++ rest = run' ++ rest') :
    run = run' ∧ rest = rest' := by
  constructor
  · rw [← takeWhile_run h hrest, e, takeWhile_run h' hrest']
  · rw [← dropWhile_run h hrest, e, dropWhile_run h' hrest']

end PocketCalculator
