import PocketCalculator.Editor.Press
import PocketCalculator.Proofs.Text.Runs

/-!
# Typed texts

What the keys put behind a formula depends on what it ends with, and so does what an expression
can go on with. A text is typed if each of its characters is one that the keys put behind the
characters before it. Typed texts are not all expressions: an operand may be missing, or the
multiplication after a bare decimal point.

The texts here are bare: the decimal point is `.`, and numbers are not grouped.
-/

namespace PocketCalculator

/-- Whether a character is an operator that takes an operand on its right. -/
def isInfix (c : Char) : Bool :=
  Operator.isGlyph c && c != '%'

theorem exists_digitChar_eq {c : Char} (hc : c.isDigit) : ∃ d : Fin 10, Nat.digitChar d = c := by
  have hbounds : 48 ≤ c.toNat ∧ c.toNat ≤ 57 := by
    rw [Char.isDigit, Bool.and_eq_true_iff, decide_eq_true_iff, decide_eq_true_iff] at hc
    exact ⟨hc.1, hc.2⟩
  have hnat : ∀ d : Fin 10, (Nat.digitChar d).toNat = 48 + d := by decide
  refine ⟨⟨c.toNat - 48, by omega⟩, Char.toNat_inj.1 ?_⟩
  rw [hnat]
  dsimp only
  omega

/-- What holds of no digit. -/
theorem eq_false_of_isDigit {p : Char → Bool} (hp : ∀ d : Fin 10, p (Nat.digitChar d) = false)
    {c : Char} (hc : c.isDigit) : p c = false := by
  obtain ⟨d, rfl⟩ := exists_digitChar_eq hc
  exact hp d

/-- What a text ends with. -/
inductive Ending where
  /-- Nothing, or an opening parenthesis. -/
  | start
  /-- An operator that takes an operand on its right. -/
  | operator
  /-- The digits of a number without a point. -/
  | integer
  | point
  /-- The digits behind a point. -/
  | fraction
  | close
  | percent
deriving DecidableEq, Repr

namespace Ending

variable {e : Ending} {c : Char} {count : Nat} {t u : Text}

/-- What a text ends with after another character. -/
def after (e : Ending) (c : Char) : Ending :=
  if c.isDigit then if e = point ∨ e = fraction then fraction else integer
  else if c = '.' then point
  else if c = '(' then start
  else if c = ')' then close
  else if c = '%' then percent
  else operator

/-- Whether an operand is missing. -/
def awaits (e : Ending) : Bool :=
  e == start || e == operator

/-- Whether every operator can follow. -/
def isOperand (e : Ending) : Bool :=
  e == integer || e == fraction || e == close

/-- Whether the keys put a character there. A closing parenthesis needs an open one besides. -/
def admits (e : Ending) (c : Char) : Bool :=
  if c.isDigit then e != close && e != percent
  else if c = '.' then e == integer
  else if c = '(' then e.awaits || e == point
  else if c = ')' then true
  else Operator.isGlyph c && (e.isOperand || e == start && c == '-' || e == percent && c == '×')

/-- Whether no expression goes on with a character there: an operand is missing before a closing
parenthesis, or an operator between a point and an opening one. -/
def isFlaw (e : Ending) (c : Char) : Bool :=
  c == ')' && e.awaits || c == '(' && e == point

/-- The characters that a text with an ending can have at its end. -/
def lastChars : Ending → Text
  | start => ['(']
  | operator => ['+', '-', '×', '÷']
  | integer | fraction => ['0', '1', '2', '3', '4', '5', '6', '7', '8', '9']
  | point => ['.']
  | close => [')']
  | percent => ['%']

/-! ### One character -/

theorem after_digit (hc : c.isDigit) :
    e.after c = if e = point ∨ e = fraction then fraction else integer :=
  if_pos hc

@[simp] theorem after_point : e.after '.' = point := rfl

@[simp] theorem after_open : e.after '(' = start := rfl

@[simp] theorem after_close : e.after ')' = close := rfl

@[simp] theorem after_percent : e.after '%' = percent := rfl

theorem exists_glyph_of_isInfix (hc : isInfix c) :
    c = '+' ∨ c = '-' ∨ c = '×' ∨ c = '÷' := by
  obtain ⟨hglyph, hpercent⟩ := Bool.and_eq_true_iff.1 hc
  obtain ⟨op, rfl⟩ := Operator.isGlyph_iff.1 hglyph
  cases op with
  | plus => exact Or.inl rfl
  | minus => exact Or.inr (Or.inl rfl)
  | times => exact Or.inr (Or.inr (Or.inl rfl))
  | divide => exact Or.inr (Or.inr (Or.inr rfl))
  | percent => cases hpercent

theorem after_of_isInfix (hc : isInfix c) : e.after c = operator := by
  rcases exists_glyph_of_isInfix hc with rfl | rfl | rfl | rfl <;> rfl

/-- The characters that the keys put into a formula. -/
theorem cases_of_admits (h : e.admits c) :
    c.isDigit ∨ c = '.' ∨ c = '(' ∨ c = ')' ∨ c = '%' ∨ isInfix c := by
  by_contra hc
  obtain ⟨hdigit, hpoint, hopen, hclose, hpercent, hoperator⟩ := by simpa only [not_or] using hc
  have hglyph : Operator.isGlyph c = false := by
    simpa [isInfix, hpercent] using hoperator
  simp [admits, hdigit, hpoint, hopen, hclose, hglyph] at h

theorem admits_digit (hc : c.isDigit) : e.admits c ↔ e ≠ close ∧ e ≠ percent := by
  rw [admits, if_pos hc, Bool.and_eq_true_iff, bne_iff_ne, bne_iff_ne]

theorem admits_point : e.admits '.' ↔ e = integer := by
  simp [admits]

theorem admits_open : e.admits '(' ↔ e.awaits ∨ e = point := by
  simp [admits]

theorem admits_close : e.admits ')' := by
  cases e <;> decide

theorem admits_percent : e.admits '%' ↔ e.isOperand := by
  cases e <;> decide

theorem admits_glyph_of_isOperand (h : e.isOperand) (op : Operator) : e.admits op.glyph := by
  revert h
  cases op <;> cases e <;> decide

/-- What an operator or a point can follow. -/
theorem cases_of_admits_glyph (h : e.admits c) (hc : Operator.isGlyph c ∨ c = '.') :
    e = start ∨ e.isOperand ∨ e = percent := by
  revert h
  rcases hc with hc | rfl
  · obtain ⟨op, rfl⟩ := Operator.isGlyph_iff.1 hc
    cases op <;> cases e <;> decide
  · cases e <;> decide

/-- No operator but a sign, at the start, can follow where an operand is missing. -/
theorem eq_minus_of_admits (h : e.admits c) (hc : isInfix c) (hawaits : e.awaits) : c = '-' := by
  rcases exists_glyph_of_isInfix hc with rfl | rfl | rfl | rfl
  · cases e <;> revert h hawaits <;> decide
  · rfl
  · cases e <;> revert h hawaits <;> decide
  · cases e <;> revert h hawaits <;> decide

theorem mem_lastChars_after (h : e.admits c) : c ∈ (e.after c).lastChars := by
  have hdigits : ∀ d : Fin 10, Nat.digitChar d ∈ integer.lastChars := by decide
  rcases cases_of_admits h with hc | rfl | rfl | rfl | rfl | hc
  · obtain ⟨d, rfl⟩ := exists_digitChar_eq hc
    rw [after_digit hc]
    split
    · exact hdigits d
    · exact hdigits d
  · exact List.mem_singleton_self _
  · exact List.mem_singleton_self _
  · exact List.mem_singleton_self _
  · exact List.mem_singleton_self _
  · rw [after_of_isInfix hc]
    rcases exists_glyph_of_isInfix hc with rfl | rfl | rfl | rfl <;> decide

/-- What holds of all characters that the keys put into a formula. -/
theorem of_admits {p : Char → Bool} (h : e.admits c) (hp : ∀ e : Ending, e.lastChars.all p) : p c :=
  List.all_eq_true.1 (hp _) c (mem_lastChars_after h)

theorem after_eq_point : e.after c = point ↔ c = '.' := by
  constructor
  · intro h
    by_contra hc
    unfold after at h
    rw [if_neg hc] at h
    split_ifs at h
  · rintro rfl
    rfl

/-! ### Texts -/

/-- Whether the keys put a text behind what ends so and has `count` open parentheses. -/
def TypedFrom : Ending → Nat → Text → Prop
  | _, _, [] => True
  | e, count, c :: t =>
    e.admits c ∧ (c = ')' → 0 < count) ∧ TypedFrom (e.after c) (openAfter count c) t

/-- Whether no character of a text is a flaw behind what ends so. -/
def Unflawed : Ending → Text → Prop
  | _, [] => True
  | e, c :: t => e.isFlaw c = false ∧ Unflawed (e.after c) t

/-- Whether a text completes what ends so: it has no flaw, and no operand is missing at the end. -/
def Completes (e : Ending) (t : Text) : Prop :=
  Unflawed e t ∧ (t.foldl after e).awaits = false

theorem typedFrom_append :
    TypedFrom e count (t ++ u) ↔
      TypedFrom e count t ∧ TypedFrom (t.foldl after e) (t.foldl openAfter count) u := by
  induction t generalizing e count with
  | nil => simp [TypedFrom]
  | cons c t ih => simp [TypedFrom, ih, and_assoc]

theorem unflawed_append :
    Unflawed e (t ++ u) ↔ Unflawed e t ∧ Unflawed (t.foldl after e) u := by
  induction t generalizing e with
  | nil => simp [Unflawed]
  | cons c t ih => simp [Unflawed, ih, and_assoc]

theorem completes_append :
    Completes e (t ++ u) ↔ Unflawed e t ∧ Completes (t.foldl after e) u := by
  rw [Completes, Completes, unflawed_append, List.foldl_append, and_assoc]

theorem completes_cons :
    Completes e (c :: t) ↔ e.isFlaw c = false ∧ Completes (e.after c) t := by
  rw [Completes, Unflawed, and_assoc]
  rfl

theorem completes_nil : Completes e [] ↔ e.awaits = false := by
  simp [Completes, Unflawed]

theorem isFlaw_of_isInfix (hc : isInfix c) : e.isFlaw c = false := by
  rcases exists_glyph_of_isInfix hc with rfl | rfl | rfl | rfl <;> rfl

/-- Behind an operator its right operand is missing. -/
theorem completes_cons_of_isInfix (hc : isInfix c) :
    Completes e (c :: t) ↔ Completes operator t := by
  rw [completes_cons, isFlaw_of_isInfix hc, after_of_isInfix hc]
  simp

end Ending

open Ending

variable {c : Char} {t u : Text}

/-- What a text ends with. -/
def ending (t : Text) : Ending :=
  t.foldl after .start

/-- Whether the keys put a text into an empty formula. -/
def Typed (t : Text) : Prop := TypedFrom .start 0 t

@[simp] theorem ending_nil : ending [] = .start := rfl

@[simp] theorem ending_concat (t : Text) (c : Char) : ending (t ++ [c]) = (ending t).after c := by
  simp [ending]

theorem typed_nil : Typed [] := trivial

theorem typed_concat :
    Typed (t ++ [c]) ↔ Typed t ∧ (ending t).admits c ∧ (c = ')' → 0 < unmatched t) := by
  rw [Typed, typedFrom_append]
  simp only [TypedFrom, and_true]
  rfl

theorem Typed.concat (h : Typed t) (hadmits : (ending t).admits c) (hc : c ≠ ')') :
    Typed (t ++ [c]) :=
  typed_concat.2 ⟨h, hadmits, fun e => absurd e hc⟩

theorem typed_singleton (hadmits : Ending.start.admits c) (hc : c ≠ ')') : Typed [c] :=
  typed_nil.concat hadmits hc

theorem Typed.of_append (h : Typed (t ++ u)) : Typed t :=
  (typedFrom_append.1 h).1

theorem Typed.dropLast (h : Typed t) : Typed t.dropLast := by
  cases t using List.reverseRecOn with
  | nil => exact h
  | append_singleton t c =>
    rw [List.dropLast_concat]
    exact h.of_append

/-- A typed text is empty or ends with a character that the keys put there. -/
theorem Typed.nil_or_concat (h : Typed t) :
    t = [] ∨ ∃ u c, t = u ++ [c] ∧ Typed u ∧ (ending u).admits c := by
  cases t using List.reverseRecOn with
  | nil => exact Or.inl rfl
  | append_singleton u c => exact Or.inr ⟨u, c, rfl, h.of_append, (typed_concat.1 h).2.1⟩

/-- A class that all last characters of an ending are in, or none of them, depends on the ending
alone. -/
theorem Typed.any_getLast?_eq (h : Typed t) {p : Char → Bool} {q : Ending → Bool}
    (hp : ∀ e : Ending, e.lastChars.all (p · == q e)) (hstart : q .start = false) :
    t.getLast?.any p = q (ending t) := by
  rcases h.nil_or_concat with rfl | ⟨u, c, rfl, -, hadmits⟩
  · exact hstart.symm
  · rw [List.getLast?_concat, Option.any_some, ending_concat]
    exact beq_iff_eq.1 (List.all_eq_true.1 (hp _) c (mem_lastChars_after hadmits))

end PocketCalculator
