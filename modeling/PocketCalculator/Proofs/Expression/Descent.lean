import PocketCalculator.Proofs.Expression.Places
import PocketCalculator.Proofs.Expression.Scanner

/-!
# Descending with a counter

The recursive descent over cursors, which records every factor that is entered together with the
counter. An answer does not depend on the fuel: it stays the same with more (`descend_extends`).
-/

namespace PocketCalculator

open Reading

namespace Descent

/-- A factor that is entered. -/
structure Entry where
  /-- The number of factors that are being read, this one among them. -/
  active : Nat
  /-- The place where it is entered, with the blank characters before it still to be skipped. -/
  place : Cursor
deriving DecidableEq, Repr

/-- How far a descent has come. -/
structure Trail where
  cursor : Cursor
  /-- The counter. -/
  depth : Nat
  /-- The factors that have been entered, in order. -/
  entered : List Entry
deriving DecidableEq, Repr

namespace Trail

/-- The start of a text. -/
def start (t : Text) : Trail :=
  ⟨Cursor.start t, 0, []⟩

/-- The same at another place. -/
def goTo (cur : Cursor) (trail : Trail) : Trail :=
  { trail with cursor := cur }

@[simp] theorem cursor_goTo (cur : Cursor) (trail : Trail) : (trail.goTo cur).cursor = cur := rfl

@[simp] theorem goTo_goTo (cur cur' : Cursor) (trail : Trail) :
    (trail.goTo cur).goTo cur' = trail.goTo cur' := rfl

/-- Counts and records a factor. -/
def enter (trail : Trail) : Trail :=
  let active := trail.depth + 1
  ⟨trail.cursor, active, trail.entered ++ [⟨active, trail.cursor⟩]⟩

/-- Does not count it any more. -/
def leave (trail : Trail) : Trail :=
  { trail with depth := trail.depth - 1 }

end Trail

/-- The place behind the next character, if there is one. -/
def step (cur : Cursor) : Cursor :=
  cur.after (cur.rest.take 1) (cur.rest.drop 1)

theorem step_of_cons {cur : Cursor} {c : Char} {rest : Text} (h : cur.rest = c :: rest) :
    step cur = cur.after [c] rest := by
  rw [step, h]
  rfl

/-- Goes on from another place. -/
def move (f : Cursor → Cursor) : Reading Trail Unit :=
  modify fun trail => trail.goTo (f trail.cursor)

/-- Reading at cursors. -/
def trails : Scanner Trail where
  position trail := trail.cursor.position
  current trail := trail.cursor.rest.head?
  advance := move step
  skipWhile p := move (·.skipWhile p)
  run p := do
    let piece ← look fun trail => trail.cursor.rest.takeWhile p
    move (·.skipWhile p)
    return piece
  depth := Trail.depth
  enter := Trail.enter
  leave := Trail.leave

/-- A factor, if the limit allows it. -/
def factor (limit? : Option Nat) (fuel : Nat) : Reading Trail Float :=
  trails.factor limit? fuel

/-- The answer for a whole text and how far the descent has come then, if the fuel lasts. -/
def descend (limit? : Option Nat) (fuel : Nat) (t : Text) :
    Option (Except EvalError Float × Trail) :=
  (trails.whole limit? fuel).answer? (.start t)

/-! ### Tokens -/

section Tokens

variable {α : Type} {trail : Trail} {c : Char} {rest : Text}

theorem answer?_skipWhile_bind (p : Char → Bool) (k : Unit → Reading Trail α) (trail : Trail) :
    (trails.skipWhile p >>= k).answer? trail =
      (k ()).answer? (trail.goTo (trail.cursor.skipWhile p)) := rfl

theorem answer?_run_bind (p : Char → Bool) (k : Text → Reading Trail α) (trail : Trail) :
    (trails.run p >>= k).answer? trail =
      (k (trail.cursor.rest.takeWhile p)).answer? (trail.goTo (trail.cursor.skipWhile p)) := rfl

theorem answer?_advance (trail : Trail) :
    trails.advance.answer? trail = some (.ok (), trail.goTo (step trail.cursor)) := rfl

theorem answer?_eat (h : trail.cursor.skipBlank.rest = c :: rest) :
    (trails.eat c).answer? trail =
      some (.ok true, trail.goTo (trail.cursor.skipBlank.after [c] rest)) := by
  have hhead : trail.cursor.skipBlank.rest.head? = some c := congrArg List.head? h
  unfold Scanner.eat
  rw [answer?_skipWhile_bind, answer?_look_bind, ← step_of_cons h]
  refine (congrArg (Reading.answer? · _) (if_pos hhead)).trans ?_
  exact answer?_bind_ok (answer?_advance _)

theorem answer?_eat_ne (h : trail.cursor.skipBlank.rest.head? ≠ some c) :
    (trails.eat c).answer? trail = some (.ok false, trail.goTo trail.cursor.skipBlank) := by
  unfold Scanner.eat
  rw [answer?_skipWhile_bind, answer?_look_bind]
  exact congrArg (Reading.answer? · _) (if_neg h)

end Tokens

/-! ### More fuel -/

section Fuel

variable {fuel fuel' : Nat}

/-- An answer for a factor stays the same with more fuel. -/
theorem factor_extends {limit? : Option Nat} {trail : Trail} {x : Except EvalError Float × Trail}
    (h : (factor limit? fuel).answer? trail = some x) (hfuel : fuel ≤ fuel') :
    (factor limit? fuel').answer? trail = some x :=
  (Scanner.factor_refines (.refl trails) limit? hfuel).answer?_eq h

/-- An answer for a whole text stays the same with more fuel. -/
theorem descend_extends {limit? : Option Nat} {t : Text} {x : Except EvalError Float × Trail}
    (h : descend limit? fuel t = some x) (hfuel : fuel ≤ fuel') :
    descend limit? fuel' t = some x :=
  (Scanner.whole_refines (.refl trails) limit? hfuel).answer?_eq h

end Fuel

end Descent

end PocketCalculator
