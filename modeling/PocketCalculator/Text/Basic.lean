/-!
# Text

Formulas, readouts and scripts are lists of characters: every operation of the calculator reads or
changes them one character at a time. A class of characters is a list of ranges of code points.
-/

namespace PocketCalculator

/-- The text of a formula, a readout or a script, in reading order. -/
abbrev Text := List Char

/-- A set of characters, as ranges of code points with both ends included. -/
abbrev CharRanges := List (Nat × Nat)

/-- Whether one of the ranges holds the character. -/
def CharRanges.holds (ranges : CharRanges) (c : Char) : Bool :=
  ranges.any fun range => range.1 ≤ c.toNat && c.toNat ≤ range.2

/-- No character is in two sets whose ranges lie apart. -/
theorem CharRanges.holds_eq_false_of_apart {ranges others : CharRanges} {c : Char}
    (hapart : ∀ r ∈ ranges, ∀ s ∈ others, r.2 < s.1 ∨ s.2 < r.1) (hc : ranges.holds c) :
    others.holds c = false := by
  obtain ⟨r, hr, hcr⟩ := List.any_eq_true.1 hc
  refine List.any_eq_false.2 fun s hs hcs => ?_
  have hrs := hapart r hr s hs
  simp only [Bool.and_eq_true, decide_eq_true_eq] at hcr hcs
  omega

/-- Whether a text is one or more ASCII digits. -/
def isDigits (t : Text) : Bool :=
  !t.isEmpty && t.all Char.isDigit

/-- The number of bytes that a text takes in UTF-8. -/
def utf8Length : Text → Nat
  | [] => 0
  | c :: t => c.utf8Size + utf8Length t

@[simp] theorem utf8Length_nil : utf8Length [] = 0 := rfl

@[simp] theorem utf8Length_cons (c : Char) (t : Text) :
    utf8Length (c :: t) = c.utf8Size + utf8Length t := rfl

@[simp] theorem utf8Length_append (s t : Text) :
    utf8Length (s ++ t) = utf8Length s + utf8Length t := by
  induction s with
  | nil => simp
  | cons c s ih => simp [ih, Nat.add_assoc]

end PocketCalculator
