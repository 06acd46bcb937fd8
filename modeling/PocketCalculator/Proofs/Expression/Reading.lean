import PocketCalculator.Proofs.Expression.Grammar

/-!
# Readers and phrases

`Reads r P goesOn`: the reader `r` succeeds exactly on the trees of the phrase `P`, with their
values, provided that no character of `goesOn` follows. A reader of operands with operators between
them reads the operands of a phrase (`operands_reads`).

A reader may have skipped blanks that belong to the token behind it, so the text behind a tree is
compared with the cursor up to blanks (`At`).
-/

namespace PocketCalculator

namespace Expression

/-! ### Blanks -/

@[simp] theorem skipBlank_rest (cur : Cursor) :
    cur.skipBlank.rest = cur.rest.dropWhile isBlank := rfl

theorem dropWhile_gap_append (gap : Gap) (t : Text) :
    ((gap : Text) ++ t).dropWhile isBlank = t.dropWhile isBlank :=
  List.dropWhile_append_of_pos gap.2

theorem dropWhile_gap_cons (gap : Gap) {c : Char} (hc : isBlank c = false) (t : Text) :
    ((gap : Text) ++ c :: t).dropWhile isBlank = c :: t := by
  rw [dropWhile_gap_append, List.dropWhile_cons_of_neg (by simp [hc])]

theorem next?_gap_cons (gap : Gap) {c : Char} (hc : isBlank c = false) (t : Text) :
    next? (gap ++ c :: t) = some c := by
  rw [next?, dropWhile_gap_cons gap hc, List.head?_cons]

/-- The blanks at the start of a text. -/
theorem exists_gap (t : Text) : ∃ gap : Gap, t = gap ++ t.dropWhile isBlank := by
  refine ⟨⟨t.takeWhile isBlank, fun c hc => ?_⟩, List.takeWhile_append_dropWhile.symm⟩
  exact List.mem_takeWhile_imp hc

/-- The cursor stands at a text, or after some of the blanks at its start. -/
def At (t : Text) (cur : Cursor) : Prop := t.dropWhile isBlank = cur.rest.dropWhile isBlank

theorem at_rest (cur : Cursor) : At cur.rest cur := rfl

theorem At.skipBlank {t : Text} {cur : Cursor} (h : At t cur) : At t cur.skipBlank := by
  rw [At, skipBlank_rest, h, List.dropWhile_idempotent]

/-- The next token of the text is that of the cursor. -/
theorem At.exists_gap {t : Text} {cur : Cursor} (h : At t cur) :
    ∃ gap : Gap, t = gap ++ cur.skipBlank.rest := by
  obtain ⟨gap, hgap⟩ := Expression.exists_gap t
  exact ⟨gap, by rw [skipBlank_rest, ← h, ← hgap]⟩

theorem At.skipBlank_rest_eq {gap : Gap} {c : Char} {t : Text} {cur : Cursor}
    (h : At (gap ++ c :: t) cur) (hc : isBlank c = false) : cur.skipBlank.rest = c :: t := by
  rw [skipBlank_rest, ← h, dropWhile_gap_cons gap hc]

theorem At.next?_eq {t : Text} {cur : Cursor} (h : At t cur) :
    next? t = cur.skipBlank.rest.head? := by
  rw [next?, h, skipBlank_rest]

/-! ### What it means to read a phrase -/

variable {α : Type}

/-- What follows goes on with no character of a class. -/
def Ends (goesOn : Char → Prop) (rest : Text) : Prop := ∀ c, next? rest = some c → ¬ goesOn c

theorem ends_false (rest : Text) : Ends (fun _ => False) rest := fun _ _ => not_false

/-- A reader answers exactly the trees of a phrase, if no character of `goesOn` is next. -/
structure Reads (r : Reader) (P : Phrase α) (goesOn : Char → Prop) : Prop where
  sound : ∀ {t : Text} {cur : Cursor} {value : Float} {behind : Cursor}, At t cur →
    r cur = .ok (value, behind) →
      ∃ x rest, t = P.text x ++ rest ∧ At rest behind ∧ P.Settled x rest ∧ P.value? x = some value
  complete : ∀ {x : α} {rest : Text} {cur : Cursor} {value : Float}, At (P.text x ++ rest) cur →
    P.Settled x rest → P.value? x = some value → Ends goesOn rest →
      ∃ behind, r cur = .ok (value, behind) ∧ At rest behind

/-! ### Sums and products -/

section Operands

variable {r : Reader} {P : Phrase α} {goesOn : Char → Prop}
  {operator? : Char → Option (Float → Float → Float)}

theorem moreText_cons_append (P : Phrase α) (y : Further α) (ys : List (Further α)) (rest : Text) :
    P.moreText (y :: ys) ++ rest =
      y.gap ++ y.operator :: (P.text y.operand ++ (P.moreText ys ++ rest)) := by
  simp [Phrase.moreText, Phrase.furtherText]

theorem length_le_moreText (P : Phrase α) (ys : List (Further α)) :
    ys.length ≤ (P.moreText ys).length := by
  induction ys with
  | nil => simp
  | cons y ys ih =>
    simp only [Phrase.moreText, Phrase.furtherText, List.flatMap_cons, List.length_append,
      List.length_cons] at ih ⊢
    omega

/-- Operators are no blanks, so there are at most as many of them as characters left. -/
theorem length_le_of_at (hop : ∀ c, (operator? c).isSome → isBlank c = false)
    {ys : List (Further α)} {rest : Text} {cur : Cursor} (h : At (P.moreText ys ++ rest) cur)
    (hs : P.MoreSettled operator? ys rest) : ys.length ≤ cur.rest.length := by
  cases ys with
  | nil => simp
  | cons y ys =>
    have hy := hop _ hs.1
    rw [At, moreText_cons_append, dropWhile_gap_cons _ hy] at h
    have h1 := (List.dropWhile_sublist (l := cur.rest) isBlank).length_le
    have h2 := length_le_moreText P ys
    rw [← h] at h1
    simp only [List.length_cons, List.length_append] at h1 ⊢
    omega

theorem chain_sound (hr : Reads r P goesOn) (count : Nat) {t : Text} {cur : Cursor}
    {value value' : Float} {behind : Cursor} (h : At t cur)
    (hc : chain operator? r count value cur = .ok (value', behind)) :
    ∃ ys rest, t = P.moreText ys ++ rest ∧ At rest behind ∧ P.MoreSettled operator? ys rest ∧
      P.moreValue? operator? value ys = some value' := by
  induction count generalizing t cur value with
  | zero =>
    obtain ⟨rfl, rfl⟩ : value = value' ∧ cur = behind := by simpa [chain] using hc
    exact ⟨[], t, rfl, h, trivial, rfl⟩
  | succ count ih =>
    obtain ⟨gap, ht⟩ := h.exists_gap
    unfold chain at hc
    dsimp only at hc
    split at hc
    · obtain ⟨rfl, rfl⟩ : value = value' ∧ cur.skipBlank = behind := by simpa using hc
      exact ⟨[], t, rfl, h.skipBlank, trivial, rfl⟩
    · rename_i c after hnext
      split at hc
      · obtain ⟨rfl, rfl⟩ : value = value' ∧ cur.skipBlank = behind := by simpa using hc
        exact ⟨[], t, rfl, h.skipBlank, trivial, rfl⟩
      · rename_i combine hop
        split at hc
        · cases hc
        · rename_i right mid hread
          obtain ⟨x, rest₁, hx, hmid, hsettled, hvalue⟩ := hr.sound (at_rest _) hread
          obtain ⟨ys, rest, rfl, hbehind, hys, hv⟩ := ih hmid hc
          refine ⟨⟨gap, c, x⟩ :: ys, rest, ?_, hbehind, ⟨by simp [hop], hsettled, hys⟩, ?_⟩
          · have hafter : after = P.text x ++ (P.moreText ys ++ rest) := hx
            rw [ht, hnext, moreText_cons_append, hafter]
          · simp [Phrase.moreValue?, hop, hvalue, hv]

/-- What follows an operand is either the end of the operands or another operator. -/
theorem moreText_stops (hop : ∀ c, (operator? c).isSome → isBlank c = false ∧ ¬ goesOn c)
    {ys : List (Further α)} {rest : Text} (hs : P.MoreSettled operator? ys rest)
    (hrest : Ends (fun c => goesOn c ∨ (operator? c).isSome) rest) :
    Ends goesOn (P.moreText ys ++ rest) := by
  intro c hc
  cases ys with
  | nil => exact fun hg => hrest c hc (Or.inl hg)
  | cons y ys =>
    have hy := hop _ hs.1
    rw [moreText_cons_append, next?_gap_cons _ hy.1] at hc
    cases hc
    exact hy.2

/-- Without an operator nothing more is read. -/
theorem chain_stops {rest : Text} {cur : Cursor} (h : At rest cur)
    (hrest : Ends (fun c => (operator? c).isSome) rest) (count : Nat) (value : Float) :
    ∃ behind, chain operator? r count value cur = .ok (value, behind) ∧ At rest behind := by
  cases count with
  | zero => exact ⟨cur, rfl, h⟩
  | succ count =>
    refine ⟨cur.skipBlank, ?_, h.skipBlank⟩
    unfold chain
    dsimp only
    split
    · rfl
    · rename_i c after hcur
      have hnext := h.next?_eq
      rw [hcur, List.head?_cons] at hnext
      rw [Option.not_isSome_iff_eq_none.1 (hrest c hnext)]

theorem chain_complete (hr : Reads r P goesOn)
    (hop : ∀ c, (operator? c).isSome → isBlank c = false ∧ ¬ goesOn c)
    {ys : List (Further α)} {rest : Text} (count : Nat) {cur : Cursor} {value value' : Float}
    (hcount : ys.length ≤ count) (h : At (P.moreText ys ++ rest) cur)
    (hs : P.MoreSettled operator? ys rest) (hv : P.moreValue? operator? value ys = some value')
    (hrest : Ends (fun c => goesOn c ∨ (operator? c).isSome) rest) :
    ∃ behind, chain operator? r count value cur = .ok (value', behind) ∧ At rest behind := by
  induction ys generalizing count cur value with
  | nil =>
    obtain rfl : value = value' := by simpa [Phrase.moreValue?] using hv
    exact chain_stops h (fun c hc hop => hrest c hc (Or.inr hop)) count value
  | cons y ys ih =>
    obtain ⟨hy, hsy, hsys⟩ := hs
    obtain ⟨combine, hcombine⟩ := Option.isSome_iff_exists.1 hy
    obtain ⟨count, rfl⟩ : ∃ k, count = k + 1 := ⟨count - 1, by simp at hcount; omega⟩
    rw [moreText_cons_append] at h
    have hcur := h.skipBlank_rest_eq (hop _ hy).1
    rw [Phrase.moreValue?, hcombine] at hv
    cases hvy : P.value? y.operand with
    | none => simp [hvy] at hv
    | some right =>
      simp only [hvy] at hv
      have hstop := moreText_stops hop hsys hrest
      have hat : At (P.text y.operand ++ (P.moreText ys ++ rest))
        (cur.skipBlank.after [y.operator] (P.text y.operand ++ (P.moreText ys ++ rest))) := rfl
      obtain ⟨mid, hread, hmid⟩ := hr.complete hat hsy hvy hstop
      obtain ⟨behind, hchain, hbehind⟩ := ih count (by simpa using hcount) hmid hsys hv
      refine ⟨behind, ?_, hbehind⟩
      unfold chain
      dsimp only
      rw [hcur]
      simp only [hcombine, hread, hchain]

/-- Reading operands with operators between them. -/
theorem operands_reads (hr : Reads r P goesOn)
    (hop : ∀ c, (operator? c).isSome → isBlank c = false ∧ ¬ goesOn c) :
    Reads (operands operator? r) (P.operands operator?)
      fun c => goesOn c ∨ (operator? c).isSome where
  sound {t cur value behind} h hread := by
    unfold operands at hread
    split at hread
    · cases hread
    · rename_i first mid hfirst
      obtain ⟨x, rest₁, rfl, hmid, hx, hvalue⟩ := hr.sound h hfirst
      obtain ⟨ys, rest, rfl, hbehind, hys, hv⟩ := chain_sound hr _ hmid hread
      refine ⟨⟨x, ys⟩, rest, ?_, hbehind, ⟨hx, hys⟩, ?_⟩
      · simp [Phrase.operands]
      · simp [Phrase.operands, hvalue, hv]
  complete {x rest cur value} h hs hv hrest := by
    obtain ⟨first, ys⟩ := x
    obtain ⟨hfirst, hys⟩ := hs
    obtain ⟨v, hv₁, hv₂⟩ := Option.bind_eq_some_iff.1 hv
    dsimp only [Phrase.operands] at h hfirst hys hv₁ hv₂
    rw [List.append_assoc] at h
    obtain ⟨mid, hread, hmid⟩ := hr.complete h hfirst hv₁ (moreText_stops hop hys hrest)
    have hcount := length_le_of_at (fun c hc => (hop c hc).1) hmid hys
    obtain ⟨behind, hchain, hbehind⟩ := chain_complete hr hop _ hcount hmid hys hv₂ hrest
    refine ⟨behind, ?_, hbehind⟩
    unfold operands
    simp only [hread, hchain]

end Operands

end Expression

end PocketCalculator
