import PocketCalculator.Text.Basic

/-!
# Lines

A line ends with a line feed, which may have a carriage return before it. The last line of a text
need not have an end.
-/

namespace PocketCalculator

/-- A line without its end, if it has one. -/
def withoutLineEnd (line : Text) : Text :=
  match line.reverse with
  | '\n' :: '\r' :: rest => rest.reverse
  | '\n' :: rest => rest.reverse
  | _ => line

/-- The lines of a text, without their ends. -/
def lines (t : Text) : List Text :=
  (t.splitBy fun c _ => c != '\n').map withoutLineEnd

/-- A line of its own ends at its line feed. -/
theorem withoutLineEnd_append_newline {line : Text} (h : line.getLast? ≠ some '\r') :
    withoutLineEnd (line ++ ['\n']) = line := by
  rw [List.getLast?_eq_head?_reverse] at h
  unfold withoutLineEnd
  rw [List.reverse_append]
  rcases hr : line.reverse with _ | ⟨c, rest⟩
  · simp [List.reverse_eq_nil_iff.1 hr]
  · have hc : c ≠ '\r' := fun e => h (by simp [hr, e])
    have hl : line = (c :: rest).reverse := by simp [← hr]
    simp [hc, hl]

end PocketCalculator
