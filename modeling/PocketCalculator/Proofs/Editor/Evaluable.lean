import Mathlib.Data.List.Chain
import PocketCalculator.Proofs.Editor.Locale
import PocketCalculator.Proofs.Editor.Typed
import PocketCalculator.Proofs.Formula.Parsing

/-!
# What the keys make can be evaluated

A displayed formula is complete if no operand is missing in it, nor an operator before an opening
parenthesis. Without loading, the complete formulas of a session are exactly those that evaluation
does not refuse for their form.
-/

namespace PocketCalculator

open Ending

variable {s : Separators} {e : Ending} {c : Char} {t : Text}

/-- Whether a character leaves the operand on its right open. -/
def leavesOpen (c : Char) : Bool :=
  c == '(' || isInfix c

namespace Separators

/-- Whether the second of two neighbours of a complete formula can follow the first. -/
def Fits (s : Separators) (c d : Char) : Prop :=
  (d = ')' → leavesOpen c = false) ∧ (d = '(' → c ≠ s.decimal)

/-- Whether no operand is missing in a displayed formula, and no operator before an opening
parenthesis. -/
structure Complete (s : Separators) (formula : Text) : Prop where
  last : ∀ c, formula.getLast? = some c → leavesOpen c = false
  neighbours : formula.IsChain s.Fits

instance (s : Separators) (t : Text) : Decidable (s.Complete t) :=
  haveI : DecidableRel s.Fits := fun _ _ => inferInstanceAs (Decidable (_ ∧ _))
  decidable_of_iff (t.getLast?.all (!leavesOpen ·) ∧ t.IsChain s.Fits) <| by
    simp only [Option.all_eq_true, Bool.not_eq_true']
    exact ⟨fun h => ⟨h.1, h.2⟩, fun h => ⟨h.last, h.neighbours⟩⟩

theorem isChain_concat {R : Char → Char → Prop} :
    (t ++ [c]).IsChain R ↔ t.IsChain R ∧ ∀ d, t.getLast? = some d → R d c := by
  simp [List.isChain_append]

/-- A grouping separator stands before a digit or a decimal separator. -/
theorem isChain_regroup (s : Separators) (t : Text) :
    (s.regroup t).IsChain fun c d => c = s.grouping → s.isNumeric d := by
  induction t using runs_induction s with
  | nil =>
    rw [regroup_nil]
    exact List.isChain_nil
  | other c t hc ih =>
    rw [regroup_cons hc, List.isChain_cons]
    exact ⟨fun _ _ hgrouping => absurd hgrouping (ne_grouping_of_isNumeric hc), ih⟩
  | number run rest hrun hrest ih =>
    have hnumeric : ∀ c ∈ s.group run, s.isNumeric c := fun _ => isNumeric_of_mem_group hrun
    rw [regroup_run hrun hrest, List.isChain_append]
    have hpairwise : (s.group run).Pairwise fun c d => c = s.grouping → s.isNumeric d :=
      List.pairwise_of_forall_mem_list fun _ _ d hd _ => hnumeric d hd
    refine ⟨hpairwise.isChain, ih, ?_⟩
    intro c hc d _ hgrouping
    rw [Option.mem_def, getLast?_group] at hc
    exact absurd hgrouping (mem_ungroup.1 (List.mem_of_getLast? hc)).2

theorem fits_of_not_isParen (hc : isParen c = false) (d : Char) : s.Fits d c := by
  rw [isParen, Bool.or_eq_false_iff, beq_eq_false_iff_ne, beq_eq_false_iff_ne] at hc
  exact ⟨fun e => absurd e hc.2, fun e => absurd e hc.1⟩

theorem isReserved_of_isParen (hc : isParen c) : isReserved c := by
  rw [isParen, Bool.or_eq_true, beq_iff_eq, beq_iff_eq] at hc
  exact isReserved_of_mem (by rcases hc with rfl | rfl <;> decide)

theorem isReserved_of_leavesOpen (hc : leavesOpen c) : isReserved c := by
  rw [leavesOpen, Bool.or_eq_true, beq_iff_eq] at hc
  rcases hc with rfl | hc
  · exact isReserved_of_isParen rfl
  · exact isReserved_of_isGlyph (Bool.and_eq_true_iff.1 hc).1

/-- Before a parenthesis, a character and its bare one are neighbours alike. -/
theorem fits_bareChar_iff (hs : s.Accepted) (ht : s.Known t) {d : Char} (hd : d ∈ s.ungroup t) :
    Fits {} (s.bareChar d) c ↔ s.Fits d c := by
  have hdecimal : s.bareChar d = '.' ↔ d = s.decimal :=
    ⟨ht.eq_decimal hd, fun e => e ▸ s.bareChar_decimal⟩
  rw [Fits, Fits, hs.apply_bareChar fun _ => isReserved_of_leavesOpen]
  exact and_congr_right fun _ => imp_congr_right fun _ => not_congr hdecimal

/-- The neighbours in a grouped text are those in the bare text, as far as it matters for a
complete formula. -/
theorem isChain_bare_iff (hs : s.Accepted) (ht : s.Known t)
    (hchain : t.IsChain fun c d => c = s.grouping → s.isNumeric d) :
    (s.bare t).IsChain (Fits {}) ↔ t.IsChain s.Fits := by
  induction t using List.reverseRecOn with
  | nil => exact iff_of_true .nil .nil
  | append_singleton t c ih =>
    obtain ⟨hchain, hlast⟩ := isChain_concat.1 hchain
    have ih := ih ht.of_append hchain
    rw [bare_append, isChain_concat]
    by_cases hgrouping : c = s.grouping
    · have hnone : s.bare [c] = [] := by
        simp [bare, ungroup, hgrouping]
      have hparen : isParen c = false := hgrouping ▸ hs.sparesParens.2
      rw [hnone, List.append_nil, ih]
      exact ⟨fun h => ⟨h, fun d _ => fits_of_not_isParen hparen d⟩, fun h => h.1⟩
    · have hone : s.bare [c] = [s.bareChar c] := by
        rw [bare, ungroup_cons_of_ne hgrouping]
        rfl
      rw [hone, isChain_concat, ih]
      refine and_congr_right fun _ => ?_
      by_cases hparen : isParen c
      · have hreserved := isReserved_of_isParen hparen
        rw [hs.bareChar_eq hreserved]
        cases t using List.reverseRecOn with
        | nil => simp
        | append_singleton t d =>
          -- no grouping separator stands before a parenthesis
          have hd : d ≠ s.grouping := by
            intro e
            have hnumeric := hlast d List.getLast?_concat e
            rw [hs.isNumeric_eq hreserved] at hnumeric
            rw [isParen_of_isDigit hnumeric] at hparen
            cases hparen
          have hbare : s.bare [d] = [s.bareChar d] := by
            rw [bare, ungroup_cons_of_ne hd]
            rfl
          have hmem : d ∈ s.ungroup (t ++ [d] ++ [c]) := mem_ungroup.2 ⟨by simp, hd⟩
          rw [bare_append, hbare]
          simpa using fits_bareChar_iff hs ht hmem
      · have hplain : isParen (s.bareChar c) = false := by
          rw [hs.apply_bareChar fun _ => isReserved_of_isParen]
          simpa using hparen
        exact iff_of_true (fun d _ => fits_of_not_isParen hplain d)
          fun d _ => fits_of_not_isParen (by simpa using hparen) d

/-- A formula is complete exactly if its bare text is. -/
theorem complete_bare_iff (hs : s.Accepted) (ht : s.Neat t) :
    Complete {} (s.bare t) ↔ s.Complete t := by
  have hchain : t.IsChain fun c d => c = s.grouping → s.isNumeric d := by
    have h := s.isChain_regroup t
    rwa [ht.grouped] at h
  have hlast : (∀ c, (s.bare t).getLast? = some c → leavesOpen c = false) ↔
      ∀ c, t.getLast? = some c → leavesOpen c = false := by
    rw [ht.grouped.getLast?_bare]
    cases t.getLast? with
    | none => simp
    | some c => simp [hs.apply_bareChar fun _ => isReserved_of_leavesOpen]
  constructor
  · intro h
    exact ⟨hlast.1 h.last, (isChain_bare_iff hs ht.known hchain).1 h.neighbours⟩
  · intro h
    exact ⟨hlast.2 h.last, (isChain_bare_iff hs ht.known hchain).2 h.neighbours⟩

end Separators

/-! ### Complete typed texts -/

theorem leavesOpen_eq_awaits (h : e.admits c) : leavesOpen c = (e.after c).awaits := by
  have hall : ∀ e : Ending, e.lastChars.all (leavesOpen · == e.awaits) := by
    intro e
    cases e <;> decide
  exact beq_iff_eq.1 (List.all_eq_true.1 (hall _) c (mem_lastChars_after h))

theorem isFlaw_eq_false_iff {d : Char} (hd : e.admits d) :
    (e.after d).isFlaw c = false ↔ Separators.Fits {} d c := by
  have hpoint : (e.after d == .point) = (d == '.') := by
    rw [Bool.eq_iff_iff, beq_iff_eq, beq_iff_eq, after_eq_point]
  rw [isFlaw, ← leavesOpen_eq_awaits hd, hpoint]
  by_cases hclose : c = ')'
  · simp [Separators.Fits, hclose]
  · by_cases hopen : c = '('
    · simp [Separators.Fits, hopen]
    · simp [Separators.Fits, hopen, hclose]

theorem unflawed_iff_isChain (h : Typed t) :
    Unflawed .start t ↔ t.IsChain (Separators.Fits {}) := by
  induction t using List.reverseRecOn with
  | nil => exact iff_of_true trivial .nil
  | append_singleton t c ih =>
    obtain ⟨ht, -, hclose⟩ := typed_concat.1 h
    rw [unflawed_append, Separators.isChain_concat, ih ht]
    refine and_congr_right fun _ => ?_
    rw [Unflawed, and_iff_left (show Unflawed _ [] from trivial), ← ending]
    rcases ht.nil_or_concat with rfl | ⟨u, d, rfl, -, hd⟩
    · have hne : c ≠ ')' := fun e => absurd (hclose e) (Nat.lt_irrefl 0)
      simp [isFlaw, hne]
    · rw [ending_concat]
      simpa using isFlaw_eq_false_iff hd

theorem completes_replicate (count : Nat) :
    Completes e (List.replicate count ')') ↔ e.awaits = false := by
  induction count generalizing e with
  | zero => exact completes_nil
  | succ count ih =>
    rw [List.replicate_succ, completes_cons, ih]
    simp [isFlaw, awaits]

/-- A text with its parentheses closed is completed exactly if it is complete. -/
theorem completes_closed_iff (h : Typed t) (hne : t ≠ []) (count : Nat) :
    Completes .start (t ++ List.replicate count ')') ↔ Separators.Complete {} t := by
  rw [completes_append, completes_replicate, unflawed_iff_isChain h, ← ending]
  have hlast : (ending t).awaits = false ↔ ∀ c, t.getLast? = some c → leavesOpen c = false := by
    rcases h.nil_or_concat with rfl | ⟨u, c, rfl, -, hadmits⟩
    · exact absurd rfl hne
    · rw [ending_concat, ← leavesOpen_eq_awaits hadmits]
      simp
  rw [hlast]
  exact ⟨fun hc => ⟨hc.2, hc.1⟩, fun hc => ⟨hc.neighbours, hc.last⟩⟩

/-- Closing what is open leaves a text typed, and nothing open. -/
theorem pending_replicate (count : Nat) : Pending e count (List.replicate count ')') := by
  induction count generalizing e with
  | zero => exact ⟨trivial, rfl⟩
  | succ count ih =>
    have hrest : Pending .close count (List.replicate count ')') := ih
    exact ⟨⟨admits_close, fun _ => Nat.succ_pos count, hrest.typed⟩, hrest.closes⟩

theorem typed_closed (h : Typed t) :
    Typed (t ++ List.replicate (unmatched t) ')') ∧
      unmatched (t ++ List.replicate (unmatched t) ')') = 0 := by
  have hrest : Pending (ending t) (unmatched t) (List.replicate (unmatched t) ')') :=
    pending_replicate _
  exact ⟨typedFrom_append.2 ⟨h, hrest.typed⟩, List.foldl_append.trans hrest.closes⟩

/-- The value of a typed text with its parentheses closed. -/
theorem evaluate_closed_typed (h : Typed t) (hne : t ≠ []) :
    let expression := expressionOf (t ++ List.replicate (unmatched t) ')')
    (Separators.Complete {} t → (∃ value, evaluate expression = .ok value) ∨
      ∃ err : EvalError, evaluate expression = .error err ∧ err.IsLimit nestingLimit) ∧
    (¬ Separators.Complete {} t → ∀ value, evaluate expression ≠ .ok value) := by
  obtain ⟨htyped, hclosed⟩ := typed_closed h
  have hvalue := Expression.evaluateWithin_typed nestingLimit htyped hclosed
  rwa [completes_closed_iff h hne] at hvalue

namespace State

/-- In a session without loading, a formula that is not empty nor the error marker has a value, or
reaches a limit, if it is complete; and it has no value otherwise. -/
theorem evaluate_closed_pressAll (hs : s.check = .ok ()) {keys : List Key}
    (hkeys : ∀ key ∈ keys, ∀ t, key ≠ .load t) :
    let st := (initial.pressAll s keys).1
    st.mark ≠ .afterError → st.formula ≠ [] →
      (s.Complete st.formula →
        (∃ value, evaluate (s.plain st.closed) = .ok value) ∨
          (∃ position,
            evaluate (s.plain st.closed) = .error (.nestedTooDeep position nestingLimit)) ∨
          evaluate (s.plain st.closed) = .error .overflow) ∧
      (¬ s.Complete st.formula → ∀ value, evaluate (s.plain st.closed) ≠ .ok value) := by
  have hs := Separators.check_eq_ok_iff.1 hs
  intro st hmark hne
  have hneat : s.Neat st.formula := neat_pressAll hs hs.neat_zero hkeys
  have hst : st.Consistent := consistent_initial.pressAll hs.sparesParens keys
  have htyped : Typed (s.bare st.formula) := by
    refine formulaTyped_pressAll hs ?_ consistent_initial hs.neat_zero hkeys hmark
    rw [bare_initial hs]
    exact fun _ => typed_singleton (by decide) (by decide)
  have hcount : (st.bare s).openCount = unmatched (s.bare st.formula) := (hst.bare hs).counted
  have hplain : s.plain st.closed =
      expressionOf (s.bare st.formula ++ List.replicate (unmatched (s.bare st.formula)) ')') := by
    rw [Separators.plain_eq_map_bare, ← closed_bare hs, closed, hcount]
    rfl
  obtain ⟨hcomplete, hincomplete⟩ :=
    evaluate_closed_typed htyped (mt (hneat.eq_nil_iff hs).1 hne)
  rw [← hplain, Separators.complete_bare_iff hs hneat] at hcomplete hincomplete
  refine ⟨fun h => (hcomplete h).imp_right ?_, hincomplete⟩
  rintro ⟨err, herr, rfl | ⟨position, rfl⟩⟩
  · exact Or.inr herr
  · exact Or.inl ⟨position, herr⟩

/-- The percentage `(0%` with its parenthesis still open, and the formula `0,(0,` in which a
multiplication is missing. -/
theorem evaluate_closed_pressAll_comma :
    let s : Separators := ⟨',', '.'⟩
    let percentage := (initial.pressAll s [.open, .point, .operator .percent]).1
    let product := (initial.pressAll s [.point, .open, .point]).1
    ((∃ value, evaluate (s.plain percentage.closed) = .ok value) ∨
      (∃ position,
        evaluate (s.plain percentage.closed) = .error (.nestedTooDeep position nestingLimit)) ∨
      evaluate (s.plain percentage.closed) = .error .overflow) ∧
    ∀ value, evaluate (s.plain product.closed) ≠ .ok value :=
  ⟨(evaluate_closed_pressAll (by decide +kernel) (by simp) (by decide) (by decide)).1 (by decide),
    (evaluate_closed_pressAll (by decide +kernel) (by simp) (by decide) (by decide)).2 (by decide)⟩

end State

end PocketCalculator
