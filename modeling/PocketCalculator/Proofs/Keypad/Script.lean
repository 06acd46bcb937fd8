import Mathlib.Data.List.TakeWhile
import PocketCalculator.Command.Session
import PocketCalculator.Proofs.Keypad.Recognition
import PocketCalculator.Proofs.Text.Lines

/-!
# Scripts in parts

A text is a script if all its characters are known, so the parts of a script are scripts, and two
scripts one after the other are one. Blanks do not count, nor does the end of a line.
-/

namespace PocketCalculator

namespace Script

variable {s t : Text} {ks ls : List Key}

/-- Two scripts one after the other press the keys of both. -/
theorem read_append (hs : read s = .ok ks) (ht : read t = .ok ls) :
    read (s ++ t) = .ok (ks ++ ls) :=
  read_append_iff.2 ⟨ks, ls, hs, ht, rfl⟩

theorem keys_of_blank (h : ∀ c ∈ t, isBlank c) : keys t = [] := by
  have hnone : t.filter (!isBlank ·) = [] := List.filter_eq_nil_iff.2 fun c hc => by simp [h c hc]
  rw [keys, hnone]
  rfl

/-- The blanks around a script do not count. -/
theorem read_of_blank {before after : Text} (hread : read (before ++ t ++ after) = .ok ks)
    (hbefore : ∀ c ∈ before, isBlank c) (hafter : ∀ c ∈ after, isBlank c) : read t = .ok ks := by
  obtain ⟨hknown, rfl⟩ := read_eq_ok_iff.1 hread
  rw [keys_append, keys_append, keys_of_blank hbefore, keys_of_blank hafter, List.nil_append,
    List.append_nil]
  refine read_eq_ok_iff.2 ⟨fun c hc => hknown c ?_, rfl⟩
  simp [hc]

end Script

/-! ### Trimming -/

/-- Trimming takes blanks away at both ends. -/
theorem exists_eq_append_trim (t : Text) : ∃ before after : Text,
    t = before ++ trim t ++ after ∧ (∀ c ∈ before, isBlank c) ∧ ∀ c ∈ after, isBlank c := by
  refine ⟨t.takeWhile isBlank, ((t.dropWhile isBlank).reverse.takeWhile isBlank).reverse, ?_,
    fun c hc => List.mem_takeWhile_imp hc,
    fun c hc => List.mem_takeWhile_imp (List.mem_reverse.1 hc)⟩
  rw [trim, List.append_assoc, ← List.reverse_append, List.takeWhile_append_dropWhile,
    List.reverse_reverse, List.takeWhile_append_dropWhile]

namespace Script

variable {t : Text} {ks : List Key}

theorem read_trim (h : read t = .ok ks) : read (trim t) = .ok ks := by
  obtain ⟨before, after, ht, hbefore, hafter⟩ := exists_eq_append_trim t
  exact read_of_blank (ht ▸ h) hbefore hafter

theorem keys_eq_of_read (h : read t = .ok ks) : keys t = ks :=
  (read_eq_ok_iff.1 h).2

/-- A script may be typed as a line. -/
theorem read_withoutLineEnd (h : read t = .ok ks) :
    read (withoutLineEnd (t ++ ['\n'])) = .ok ks := by
  obtain ⟨after, ht, hafter⟩ := exists_eq_withoutLineEnd_append t
  exact @read_of_blank _ _ [] after (ht ▸ h) (by simp) hafter

/-- Scripts that are typed line by line are read as they were. -/
theorem read_lines {ts : List Text} (h : ∀ t ∈ ts, '\n' ∉ t ∧ ∃ ks, read t = .ok ks) :
    (∀ line ∈ lines (unlines ts), read (trim line) = .ok (keys line)) ∧
      (lines (unlines ts)).flatMap keys = ts.flatMap keys := by
  rw [lines_unlines fun t ht => (h t ht).1]
  refine ⟨fun line hline => ?_, ?_⟩
  · obtain ⟨t, ht, rfl⟩ := List.mem_map.1 hline
    obtain ⟨-, ks, hread⟩ := h t ht
    have hline := read_withoutLineEnd hread
    rw [keys_eq_of_read hline]
    exact read_trim hline
  · rw [List.flatMap_map]
    refine List.flatMap_congr fun t ht => ?_
    obtain ⟨-, ks, hread⟩ := h t ht
    rw [keys_eq_of_read (read_withoutLineEnd hread), keys_eq_of_read hread]

/-- No script ends a session that goes on line by line. -/
theorem isFarewell_eq_false (h : read t = .ok ks) : Session.isFarewell t = false := by
  have hunknown : ∀ word ∈ ["q".toList, "quit".toList, "exit".toList],
      word.all isKnown = false := by decide
  rw [Bool.eq_false_iff]
  intro hfarewell
  have hknown := List.all_eq_true.2 (read_eq_ok_iff.1 h).1
  rw [hunknown t (List.contains_iff_mem.1 hfarewell)] at hknown
  cases hknown

end Script

end PocketCalculator
