import Mathlib.Data.List.SplitBy
import PocketCalculator.Text.Blank
import PocketCalculator.Text.Lines

/-!
# Reading lines

The lines of a text that is written line by line are those that were written, up to a carriage
return at their end.
-/

namespace PocketCalculator

variable {line : Text} {ls : List Text}

/-- Some lines, each with its end. -/
def unlines (ls : List Text) : Text :=
  (ls.map (· ++ ['\n'])).flatten

theorem isChain_line (h : '\n' ∉ line) :
    (line ++ ['\n']).IsChain fun c _ => (c != '\n') = true := by
  induction line with
  | nil => exact List.isChain_singleton _
  | cons c line ih =>
    rw [List.mem_cons, not_or] at h
    rw [List.cons_append, List.isChain_cons]
    exact ⟨fun _ _ => bne_iff_ne.2 (Ne.symm h.1), ih h.2⟩

theorem isChain_lines (ls : List Text) : (ls.map (· ++ ['\n'])).IsChain fun first second =>
    ∃ hfirst hsecond, (fun (c : Char) (_ : Char) => c != '\n') (first.getLast hfirst)
      (second.head hsecond) = false := by
  induction ls with
  | nil => exact List.isChain_nil
  | cons line ls ih =>
    rw [List.map_cons, List.isChain_cons]
    refine ⟨fun next hnext => ?_, ih⟩
    obtain ⟨line', -, rfl⟩ := List.mem_map.1 (List.mem_of_mem_head? hnext)
    exact ⟨by simp, by simp, by simp⟩

/-- What is written line by line is read line by line. -/
theorem lines_unlines (h : ∀ line ∈ ls, '\n' ∉ line) :
    lines (unlines ls) = ls.map fun line => withoutLineEnd (line ++ ['\n']) := by
  have hne : [] ∉ ls.map (· ++ ['\n']) := by simp
  have hchain : ∀ line ∈ ls.map (· ++ ['\n']), line.IsChain fun c _ => (c != '\n') = true := by
    intro line hline
    obtain ⟨line, hmem, rfl⟩ := List.mem_map.1 hline
    exact isChain_line (h line hmem)
  rw [lines, unlines, List.splitBy_flatten hne hchain (isChain_lines ls), List.map_map]
  rfl

/-- The end of a line is blank. -/
theorem exists_eq_withoutLineEnd_append (line : Text) : ∃ after : Text,
    line = withoutLineEnd (line ++ ['\n']) ++ after ∧ ∀ c ∈ after, isBlank c := by
  by_cases h : line.getLast? = some '\r'
  · obtain ⟨rest, rfl⟩ := List.getLast?_eq_some_iff.1 h
    refine ⟨['\r'], ?_, List.forall_mem_singleton.2 rfl⟩
    have hreverse : (rest ++ ['\r'] ++ ['\n']).reverse = '\n' :: '\r' :: rest.reverse := by simp
    rw [withoutLineEnd, hreverse]
    simp
  · exact ⟨[], by rw [withoutLineEnd_append_newline h, List.append_nil], by simp⟩

end PocketCalculator
