import PocketCalculator.Number.Separators

/-!
# Grouping

The integer part of a displayed number is cut in threes from the right. Grouping starts from the
bare digits, so it does not depend on how the number was grouped before, and it is done again for
every number of a formula after each change.
-/

namespace PocketCalculator

namespace Separators

/-- Whether a character can be part of a displayed number. -/
def isNumeric (s : Separators) (c : Char) : Bool :=
  c.isDigit || c == s.decimal || c == s.grouping

/-- A text without grouping separators. -/
def ungroup (s : Separators) (t : Text) : Text :=
  t.filter (· != s.grouping)

theorem ungroup_append (s : Separators) (t u : Text) :
    s.ungroup (t ++ u) = s.ungroup t ++ s.ungroup u := by
  simp [ungroup]

/-- Puts a separator after every third character, unless it is the last. -/
def inThrees (separator : Char) : Text → Text
  | a :: b :: c :: d :: rest => a :: b :: c :: separator :: inThrees separator (d :: rest)
  | short => short

/-- Cutting in threes only adds separators. -/
theorem ungroup_inThrees (s : Separators) (t : Text) :
    s.ungroup (inThrees s.grouping t) = s.ungroup t := by
  fun_induction inThrees s.grouping t with
  | case1 a b c d rest ih =>
    simp only [ungroup] at ih ⊢
    simp [List.filter_cons, ih]
  | case2 => rfl

/-- An integer part, cut in threes from the right. -/
def groupInteger (s : Separators) (digits : Text) : Text :=
  (inThrees s.grouping digits.reverse).reverse

/-- Grouping an integer part only adds separators. -/
theorem ungroup_groupInteger (s : Separators) (t : Text) :
    s.ungroup (s.groupInteger t) = s.ungroup t := by
  have h := congrArg List.reverse (s.ungroup_inThrees t.reverse)
  simpa [groupInteger, ungroup, List.filter_reverse] using h

/-- A number without sign: its part before the first decimal separator is grouped. -/
def groupUnsigned (s : Separators) (number : Text) : Text :=
  s.groupInteger (number.takeWhile (· != s.decimal)) ++ number.dropWhile (· != s.decimal)

/-- A single number in displayed form. -/
def group (s : Separators) (number : Text) : Text :=
  match s.ungroup number with
  | '-' :: unsigned => '-' :: s.groupUnsigned unsigned
  | unsigned => s.groupUnsigned unsigned

/-- A formula with each of its numbers, its longest runs of numeric characters, in displayed
form. -/
def regroup (s : Separators) : Text → Text
  | [] => []
  | c :: rest =>
    if s.isNumeric c then
      s.group (c :: rest.takeWhile s.isNumeric) ++ regroup s (rest.dropWhile s.isNumeric)
    else c :: regroup s rest
termination_by t => t.length
decreasing_by
  · simp only [List.length_cons]
    have := (List.dropWhile_sublist (l := rest) s.isNumeric).length_le
    omega
  · simp

end Separators

end PocketCalculator
