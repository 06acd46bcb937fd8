import PocketCalculator.Proofs.Expression.Unambiguous

/-!
# What has a value

The expressions that have a value are those that the grammar derives with all literals in range
(`evaluate_eq_ok_iff`). Each has one derivation, and its value is the value of that derivation.
-/

namespace PocketCalculator

namespace Expression

variable {n : Nat} {t : Text}

theorem ends_blank (gap : Gap) (goesOn : Char → Prop) : Ends goesOn gap := by
  intro c hc
  have h := dropWhile_gap_append gap []
  rw [List.append_nil] at h
  rw [next?, h] at hc
  cases hc

theorem evaluateWithin_eq_ok_iff {value : Float} :
    evaluateWithin n t = .ok value ↔
      ∃ d : Derivation n, d.Derives t ∧ d.value? = some value := by
  have hreads := sum_reads (factor_reads n n)
  constructor
  · intro h
    unfold evaluateWithin at h
    split at h
    · cases h
    · rename_i v behind hread
      obtain ⟨x, rest, ht, hbehind, hs, hv⟩ := hreads.sound (at_rest (Cursor.start t)) hread
      dsimp only at h
      split at h
      · rename_i hempty
        cases h
        obtain ⟨last, hlast⟩ := hbehind.exists_gap
        rw [List.isEmpty_iff.1 hempty, List.append_nil] at hlast
        exact ⟨⟨x, last⟩, ⟨by rw [← hlast]; exact ht.symm, hlast ▸ hs⟩, hv⟩
      · cases h
  · rintro ⟨d, ⟨ht, hs⟩, hv⟩
    have hat : At ((Phrase.factor n).sum.text d.tree ++ d.last) (Cursor.start t) := by
      rw [ht]
      exact at_rest (Cursor.start t)
    obtain ⟨behind, hread, hbehind⟩ := hreads.complete hat hs hv (ends_blank _ _)
    have hempty : behind.skipBlank.rest = [] := by
      have h := dropWhile_gap_append d.last []
      rw [List.append_nil] at h
      rw [skipBlank_rest, ← hbehind, h, List.dropWhile_nil]
    unfold evaluateWithin
    rw [hread]
    dsimp only
    rw [hempty]
    rfl

theorem derivation_unique {d d' : Derivation n} (h : d.Derives t) (h' : d'.Derives t) : d = d' := by
  obtain ⟨x, last⟩ := d
  obtain ⟨y, last'⟩ := d'
  have e : (Phrase.factor n).sum.text x ++ last = (Phrase.factor n).sum.text y ++ last' :=
    h.1.trans h'.1.symm
  obtain rfl := (sum_unambiguous (factor_unambiguous n)).unique e h.2 h'.2 (ends_blank _ _)
    (ends_blank _ _)
  rw [List.append_cancel_left_eq] at e
  rw [Subtype.ext e]

end Expression

open Expression

/-- An expression has a value exactly if the grammar derives it with factors nested within the
limit and all literals in range; the derivation is unique, and the value is that of the
derivation. -/
theorem evaluate_eq_ok_iff (t : Text) :
    (∀ value, evaluate t = .ok value ↔
      ∃ d : Derivation nestingLimit, d.Derives t ∧ d.value? = some value) ∧
    ∀ d d' : Derivation nestingLimit, d.Derives t → d'.Derives t → d = d' :=
  ⟨fun _ => evaluateWithin_eq_ok_iff, fun _ _ => derivation_unique⟩

end PocketCalculator
