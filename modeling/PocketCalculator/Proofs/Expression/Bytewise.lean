import PocketCalculator.Proofs.Expression.Nesting
import PocketCalculator.Proofs.Expression.Viable

/-!
# Reading by byte offsets

The recursive descent on the text as it is stored: a place is a byte offset together with the
character that starts there, and going on means to cut the text at the next offset. There is no
answer if a cut is inside a character or behind the end, nor if the descent runs out of fuel. So
`Bytewise.evaluate_eq` says that all offsets are those of characters and that the descent ends,
besides that the answer is that of the evaluator.

With what can be completed (`evaluateWithin_viable`), errors are about the right places
(`evaluate_error_place`).
-/

namespace PocketCalculator

open Reading

/-! ### Cutting texts at bytes -/

theorem utf8Length_eq_zero {t : Text} (h : utf8Length t = 0) : t = [] := by
  cases t with
  | nil => rfl
  | cons c t =>
    have hc := c.utf8Size_pos
    rw [utf8Length_cons] at h
    omega

/-- The parts of a text before and behind some bytes; none if the cut is inside a character or
behind the end. -/
def splitAtByte? : Text → Nat → Option (Text × Text)
  | t, 0 => some ([], t)
  | [], _ + 1 => none
  | c :: t, n + 1 =>
    if c.utf8Size ≤ n + 1 then
      (splitAtByte? t (n + 1 - c.utf8Size)).map fun parts => (c :: parts.1, parts.2)
    else none

/-- The piece of a text between two byte offsets. -/
def slice? (t : Text) (start stop : Nat) : Option Text :=
  (splitAtByte? t stop).bind fun parts => (splitAtByte? parts.1 start).map Prod.snd

theorem append_of_splitAtByte? {t before after : Text} {n : Nat}
    (h : splitAtByte? t n = some (before, after)) :
    t = before ++ after ∧ utf8Length before = n := by
  fun_induction splitAtByte? t n generalizing before with
  | case1 t =>
    cases h
    exact ⟨rfl, rfl⟩
  | case2 => cases h
  | case3 c t n hle ih =>
    obtain ⟨parts, hparts, he⟩ := Option.map_eq_some_iff.1 h
    cases he
    obtain ⟨rfl, hlength⟩ := ih hparts
    rw [utf8Length_cons]
    exact ⟨rfl, by omega⟩
  | case4 => cases h

theorem splitAtByte?_append (before after : Text) :
    splitAtByte? (before ++ after) (utf8Length before) = some (before, after) := by
  induction before with
  | nil => cases after <;> rfl
  | cons c before ih =>
    have hc := c.utf8Size_pos
    obtain ⟨n, hn⟩ : ∃ n, c.utf8Size + utf8Length before = n + 1 :=
      ⟨c.utf8Size + utf8Length before - 1, by omega⟩
    have hrest : n + 1 - c.utf8Size = utf8Length before := by omega
    rw [utf8Length_cons, hn, List.cons_append, splitAtByte?, if_pos (by omega), hrest, ih]
    rfl

/-- A text can be cut between its characters and nowhere else. -/
theorem splitAtByte?_eq_some_iff {t before after : Text} {n : Nat} :
    splitAtByte? t n = some (before, after) ↔ t = before ++ after ∧ utf8Length before = n := by
  constructor
  · exact append_of_splitAtByte?
  · rintro ⟨rfl, rfl⟩
    exact splitAtByte?_append before after

example : splitAtByte? ['2', '×', '3'] 2 = none := by decide

theorem slice?_append (before piece after : Text) :
    slice? (before ++ (piece ++ after)) (utf8Length before) (utf8Length before + utf8Length piece) =
      some piece := by
  have hstop := splitAtByte?_append (before ++ piece) after
  rw [List.append_assoc, utf8Length_append] at hstop
  rw [slice?, hstop, Option.bind_some, splitAtByte?_append]
  rfl

namespace Bytewise

/-! ### The evaluator -/

/-- A place in a text. -/
structure Place where
  /-- The number of bytes before it. -/
  position : Nat
  /-- The character that starts there, if it is not the end. -/
  current : Option Char
  /-- The number of factors that are being read. -/
  depth : Nat
deriving DecidableEq, Repr

/-- A part of a text, if it could be cut out. -/
def cut {α : Type} (part? : Option α) : Reading Place α := fun place =>
  part?.map fun part => (.ok part, place)

/-- Goes on behind the current character. -/
def advance (input : Text) : Reading Place Unit := do
  let place ← get
  let position := place.position + place.current.elim 0 Char.utf8Size
  let parts ← cut (splitAtByte? input position)
  set { place with position, current := parts.2.head? }

/-- Goes on behind the characters of a class, looking at fewer than `count` of them. -/
def advanceWithin (input : Text) (p : Char → Bool) : (count : Nat) → Reading Place Unit
  | 0 => stuck
  | count + 1 => do
    if (← look Place.current).any p then
      advance input
      advanceWithin input p count
    else return

/-- Goes on behind the characters of a class. -/
def advanceWhile (input : Text) (p : Char → Bool) : Reading Place Unit :=
  advanceWithin input p (input.length + 1)

/-- The piece of the text that the next characters of a class make up. -/
def run (input : Text) (p : Char → Bool) : Reading Place Text := do
  let start ← look Place.position
  advanceWhile input p
  let stop ← look Place.position
  cut (slice? input start stop)

/-- Reading at byte offsets. -/
def bytes (input : Text) : Scanner Place where
  position := Place.position
  current := Place.current
  advance := advance input
  skipWhile := advanceWhile input
  run := run input
  depth := Place.depth
  enter place := { place with depth := place.depth + 1 }
  leave place := { place with depth := place.depth - 1 }

/-- The value of an expression, read by byte offsets. -/
def evaluate (input : Text) : Option (Except EvalError Float) :=
  (((bytes input).whole (some nestingLimit) (input.length + 1)).answer? ⟨0, input.head?, 0⟩).map
    Prod.fst

/-! ### Places of cursors -/

open Descent (Trail trails step step_of_cons)

/-- The place of a trail. -/
def place (trail : Trail) : Place :=
  ⟨trail.cursor.position, trail.cursor.rest.head?, trail.depth⟩

section Trails

variable {input : Text} {trail : Trail} {p : Char → Bool}

theorem reaches_step (cur : Cursor) : cur.Reaches (step cur) :=
  Cursor.reaches_after (List.take_append_drop 1 cur.rest).symm

/-- The text is cut behind the current character, or at its end again. -/
theorem answer?_advance (h : (Cursor.start input).Reaches trail.cursor) :
    (advance input).answer? (place trail) =
      some (.ok (), place (trail.goTo (step trail.cursor))) := by
  obtain ⟨before, hinput, hposition⟩ := h.trans (reaches_step trail.cursor)
  have hsize : trail.cursor.rest.head?.elim 0 Char.utf8Size =
      utf8Length (trail.cursor.rest.take 1) := by
    cases trail.cursor.rest <;> simp
  have hlength : trail.cursor.position + utf8Length (trail.cursor.rest.take 1) =
      utf8Length before := by
    simpa [step, Cursor.after, Cursor.start] using hposition
  have hcut : splitAtByte? input (trail.cursor.position + utf8Length (trail.cursor.rest.take 1)) =
      some (before, trail.cursor.rest.drop 1) :=
    splitAtByte?_eq_some_iff.2 ⟨hinput, hlength.symm⟩
  unfold advance
  rw [answer?_get_bind]
  dsimp only [place]
  rw [hsize, hcut]
  rfl

theorem answer?_advanceWithin (h : (Cursor.start input).Reaches trail.cursor) {count : Nat}
    (hcount : trail.cursor.rest.length < count) :
    (advanceWithin input p count).answer? (place trail) =
      some (.ok (), place (trail.goTo (trail.cursor.skipWhile p))) := by
  induction count generalizing trail with
  | zero => omega
  | succ count ih =>
    rw [advanceWithin, answer?_look_bind]
    cases hcur : trail.cursor.rest with
    | nil =>
      have hcurrent : (place trail).current = none := congrArg List.head? hcur
      rw [hcurrent, Cursor.skipWhile_of_stopsAt (hcur ▸ stopsAt_nil)]
      rfl
    | cons c rest =>
      have hcurrent : (place trail).current = some c := congrArg List.head? hcur
      rw [hcurrent, Option.any_some]
      by_cases hc : p c
      · -- every round takes a character, so the rounds that are left are enough for the rest
        have hrest : rest.length < count := by
          rw [hcur, List.length_cons] at hcount
          omega
        have hstep := answer?_advance h
        rw [step_of_cons hcur] at hstep
        rw [if_pos hc, answer?_bind_ok hstep, Cursor.skipWhile_of_pos hcur hc]
        exact ih (h.trans (Cursor.reaches_after hcur)) hrest
      · rw [if_neg hc, Cursor.skipWhile_of_stopsAt (hcur ▸ stopsAt_cons.2 (by simpa using hc))]
        rfl

theorem answer?_advanceWhile (h : (Cursor.start input).Reaches trail.cursor) :
    (advanceWhile input p).answer? (place trail) =
      some (.ok (), place (trail.goTo (trail.cursor.skipWhile p))) :=
  answer?_advanceWithin h (Nat.lt_succ_of_le h.length_le)

theorem answer?_run (h : (Cursor.start input).Reaches trail.cursor) :
    (run input p).answer? (place trail) =
      some (.ok (trail.cursor.rest.takeWhile p),
        place (trail.goTo (trail.cursor.skipWhile p))) := by
  obtain ⟨before, hinput, hposition⟩ := id h
  have hinput : input =
      before ++ (trail.cursor.rest.takeWhile p ++ trail.cursor.rest.dropWhile p) := by
    rw [List.takeWhile_append_dropWhile]
    exact hinput
  have hstart : trail.cursor.position = utf8Length before := by
    simpa [Cursor.start] using hposition
  have hcut : slice? input trail.cursor.position
      (trail.cursor.position + utf8Length (trail.cursor.rest.takeWhile p)) =
      some (trail.cursor.rest.takeWhile p) := by
    rw [hstart]
    nth_rewrite 1 [hinput]
    exact slice?_append before _ _
  unfold run
  rw [answer?_look_bind, answer?_bind_ok (answer?_advanceWhile h), answer?_look_bind]
  dsimp only [place, Trail.goTo, Cursor.skipWhile, Cursor.after]
  rw [hcut]
  rfl

end Trails

/-! ### The same answers -/

/-- Whether a place is that of a trail in a text. -/
def IsPlaceOf (input : Text) (pl : Place) (trail : Trail) : Prop :=
  pl = place trail ∧ (Cursor.start input).Reaches trail.cursor

/-- What is done at byte offsets goes with what is done at cursors. -/
theorem bytes_refines (input : Text) : (bytes input).Refines (IsPlaceOf input) trails where
  position_eq := by
    rintro _ trail ⟨rfl, -⟩
    rfl
  current_eq := by
    rintro _ trail ⟨rfl, -⟩
    rfl
  advance := refines_of_answer <| by
    rintro _ trail ⟨rfl, h⟩
    exact ⟨_, _, _, answer?_advance h, rfl, rfl, h.trans (reaches_step _)⟩
  skipWhile p := refines_of_answer <| by
    rintro _ trail ⟨rfl, h⟩
    exact ⟨_, _, _, answer?_advanceWhile h, rfl, rfl, h.trans (Cursor.reaches_skipWhile p _)⟩
  run p := refines_of_answer <| by
    rintro _ trail ⟨rfl, h⟩
    exact ⟨_, _, _, answer?_run h, rfl, rfl, h.trans (Cursor.reaches_skipWhile p _)⟩
  depth_eq := by
    rintro _ trail ⟨rfl, -⟩
    rfl
  enter := by
    rintro _ trail ⟨rfl, h⟩
    exact ⟨rfl, h⟩
  leave := by
    rintro _ trail ⟨rfl, h⟩
    exact ⟨rfl, h⟩

/-- Reading by byte offsets never cuts a text inside a character, and gives the value or the error
of the expression. -/
theorem evaluate_eq (t : Text) : evaluate t = some (PocketCalculator.evaluate t) := by
  obtain ⟨guarded, -, hrun⟩ := Descent.descend_nestingLimit t
  have hstart : IsPlaceOf t ⟨0, t.head?, 0⟩ (.start t) := ⟨rfl, Cursor.Reaches.refl _⟩
  obtain ⟨last, hlast, -⟩ := Scanner.whole_refines (bytes_refines t) (some nestingLimit) le_rfl
    hstart (hrun (t.length + 1) (Nat.lt_succ_self _))
  rw [evaluate, hlast]
  rfl

end Bytewise

open Expression

/-- Errors are about the right places: every cut of the text is between characters, an unexpected
character is the one at its position, and none exactly at the end, what is before it can be
completed with ones and closing parentheses to an expression with a value, and nesting ends at a
position between characters, too. -/
theorem evaluate_error_place (t : Text) :
    Bytewise.evaluate t = some (evaluate t) ∧
    (∀ position found, evaluate t = .error (.unexpected position found) →
      ∃ before after, t = before ++ after ∧ utf8Length before = position ∧ after.head? = found ∧
        (found = none ↔ position = utf8Length t) ∧
        ∃ completion value, (∀ c ∈ completion, c = '1' ∨ c = ')') ∧
          evaluate (before ++ completion) = .ok value) ∧
    ∀ position limit, evaluate t = .error (.nestedTooDeep position limit) →
      ∃ before after, t = before ++ after ∧ utf8Length before = position := by
  refine ⟨Bytewise.evaluate_eq t, ?_, ?_⟩
  · intro position found he
    obtain ⟨before, after, completion, value, ht, hposition, hfound, hones, hvalue⟩ :=
      evaluateWithin_viable he
    refine ⟨before, after, ht, hposition, hfound, ?_, completion, value, hones, hvalue⟩
    rw [← hfound, List.head?_eq_none_iff, ← hposition, ht, utf8Length_append]
    constructor
    · rintro rfl
      rfl
    · intro hlength
      exact utf8Length_eq_zero (by omega)
  · intro position limit he
    obtain ⟨rest, before, ht, hposition⟩ := within_evaluateWithin he
    exact ⟨before, rest, ht, by simpa [Cursor.start] using hposition.symm⟩

/-- A sum without its second term, behind a blank of three bytes, and one parenthesis too many. -/
theorem evaluate_error_place_blank :
    let missing := "(2+\u3000×".toList
    let nested := List.replicate 257 '('
    evaluate missing = .error (.unexpected 6 (some '×')) ∧
      (∃ before after, missing = before ++ after ∧ utf8Length before = 6 ∧
        ∃ completion value, evaluate (before ++ completion) = .ok value) ∧
      evaluate nested = .error (.nestedTooDeep 256 256) ∧
      ∃ before after, nested = before ++ after ∧ utf8Length before = 256 := by
  intro missing nested
  have hmissing : evaluate missing = .error (.unexpected 6 (some '×')) := by decide +kernel
  have hnested : evaluate nested = .error (.nestedTooDeep 256 256) := by decide +kernel
  obtain ⟨-, hunexpected, -⟩ := evaluate_error_place missing
  obtain ⟨before, after, ht, hposition, -, -, completion, value, -, hvalue⟩ :=
    hunexpected 6 (some '×') hmissing
  exact ⟨hmissing, ⟨before, after, ht, hposition, completion, value, hvalue⟩, hnested,
    (evaluate_error_place nested).2.2 256 256 hnested⟩

end PocketCalculator
