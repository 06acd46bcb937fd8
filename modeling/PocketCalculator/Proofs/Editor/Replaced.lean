import PocketCalculator.Proofs.Editor.Replay

/-!
# The last operator decides

An operator takes the place of what another one has put at the end of the formula. What is left
before it ends with no operator and no decimal separator, as long as nothing was loaded, so there is
nothing more to take away. Hence of several operators in a row the last one alone decides
(`pressAll_map_operator`).
-/

namespace PocketCalculator

open Ending

namespace State

variable {s : Separators} {st : State} {keys : List Key} {t : Text}

/-! ### The place of an operator -/

/-- Whether a new operator takes nothing away at the end of a formula. -/
def Kept (s : Separators) (t : Text) : Prop :=
  (t.getLast?.any fun c => Operator.isGlyph c || c == s.decimal) = false

theorem Kept.operatorPlace_eq (h : Kept s t) : operatorPlace s t = t := by
  rw [operatorPlace, h, if_neg Bool.false_ne_true]

/-- An operator behind it is all that another one takes away. -/
theorem Kept.operatorPlace_concat (h : Kept s t) (op : Operator) :
    operatorPlace s (t ++ [op.glyph]) = t := by
  have hglyph : t.getLast?.any Operator.isGlyph = false := by
    unfold Kept at h
    cases hlast : t.getLast? with
    | none => rfl
    | some c =>
      rw [hlast, Option.any_some, Bool.or_eq_false_iff] at h
      exact h.1
  rw [operatorPlace, List.getLast?_concat, Option.any_some, Operator.isGlyph_glyph, Bool.true_or,
    if_pos rfl, List.dropLast_concat]
  dsimp only
  rw [hglyph, if_neg Bool.false_ne_true]

/-- What is left of a typed formula before an operator is kept by the next one. -/
theorem kept_operatorPlace (hs : s.Accepted) (hneat : s.Neat t) (h : Typed (s.bare t)) :
    Kept s (operatorPlace s t) := by
  obtain ⟨htyped, hending⟩ := operatorPlace_typed h
  rw [operatorPlace_bare hs hneat] at htyped hending
  have hlast := htyped.any_getLast?_eq (p := fun c => Operator.isGlyph c || c == '.')
    (q := fun e => e == .operator || e == .percent || e == .point)
    (fun e => by cases e <;> decide) rfl
  rw [Kept, ← getLast?_bare_any hs (neat_operatorPlace hs hneat), hlast]
  rcases hending with he | he
  · rw [he]
    rfl
  · revert he
    cases ending (s.bare (operatorPlace s t)) <;> decide

/-! ### One operator after another -/

/-- The formula with an operator at its place: only a minus can stand at the start of a formula or
of a group. -/
def placed (op : Operator) (place : Text) : Text :=
  if place.getLast?.all (· = '(') ∧ op ≠ .minus then place else place ++ [op.glyph]

theorem Kept.operatorPlace_placed (h : Kept s t) (op : Operator) :
    operatorPlace s (placed op t) = t := by
  unfold placed
  split
  · exact h.operatorPlace_eq
  · exact h.operatorPlace_concat op

theorem pressOperator_eq (s : Separators) (op : Operator) (st : State) :
    st.pressOperator s op =
      { st.withoutError ['0'] with
        formula := placed op (operatorPlace s (st.withoutError ['0']).formula)
        readout := placed op (operatorPlace s (st.withoutError ['0']).formula)
        mark := .afterOperator } :=
  rfl

/-- The second operator finds the formula as the first one found it. -/
theorem pressOperator_pressOperator
    (h : Kept s (operatorPlace s (st.withoutError ['0']).formula)) (a b : Operator) :
    (st.pressOperator s a).pressOperator s b = st.pressOperator s b := by
  have hclear : (st.pressOperator s a).withoutError ['0'] = st.pressOperator s a := rfl
  rw [pressOperator_eq s b (st.pressOperator s a), hclear, pressOperator_eq s a st,
    pressOperator_eq s b st]
  dsimp only
  rw [h.operatorPlace_placed]

theorem Sound.kept (h : Sound s st) (hs : s.Accepted) :
    Kept s (operatorPlace s (st.withoutError ['0']).formula) := by
  have hzero : Typed ['0'] := typed_singleton (by decide) (by decide)
  have htyped := typed_withoutError h.typed hzero
  rw [← bare_withoutError st hs.bare_zero] at htyped
  exact kept_operatorPlace hs (withoutError_induction h.neat hs.neat_zero) htyped

/-- Of a whole run of operators the last one decides. -/
theorem Sound.pressAll_map_operator_eq (h : Sound s st) (hs : s.Accepted) (ops : List Operator)
    (b : Operator) :
    st.pressAll s (ops.map .operator ++ [.operator b]) = st.pressAll s [.operator b] := by
  induction ops generalizing st with
  | nil => rfl
  | cons a ops ih =>
    have hkey : ∀ t, Key.operator a ≠ .load t := fun t => nofun
    have hrest := ih (h.press hs hkey)
    have htwo : (st.pressOperator s a).pressOperator s b = st.pressOperator s b :=
      pressOperator_pressOperator (h.kept hs) a b
    rw [List.map_cons, List.cons_append, State.pressAll, hrest]
    exact congrArg (fun last => (last, [])) htwo

/-- In every state of a session without loading, pressing one operator and then another comes to the
same as pressing the second one alone, and so does any number of operators before it. -/
theorem pressAll_map_operator (hs : s.check = .ok ()) (hkeys : ∀ key ∈ keys, ∀ t, key ≠ .load t)
    (b : Operator) :
    let st := (initial.pressAll s keys).1
    (∀ a : Operator,
      (st.press s (.operator a)).1.press s (.operator b) = st.press s (.operator b)) ∧
    ∀ ops : List Operator,
      st.pressAll s (ops.map .operator ++ [.operator b]) = st.pressAll s [.operator b] := by
  have hs := Separators.check_eq_ok_iff.1 hs
  intro st
  have hsound : Sound s st := (sound_initial hs).pressAll hs hkeys
  refine ⟨fun a => ?_, fun ops => hsound.pressAll_map_operator_eq hs ops b⟩
  exact Prod.ext (pressOperator_pressOperator (hsound.kept hs) a b) rfl

/-- Behind `%×`, of which an operator takes both characters away. -/
theorem pressAll_map_operator_percent :
    let s : Separators := ⟨',', '.'⟩
    let st := (initial.pressAll s [.digit 5, .operator .percent, .open, .backspace]).1
    st.formula = "5%×".toList ∧ (st.press s (.operator .minus)).1.formula = "5-".toList ∧
      ∀ a : Operator,
        (st.press s (.operator a)).1.press s (.operator .minus) = st.press s (.operator .minus) :=
  ⟨by decide +kernel, by decide +kernel,
    (pressAll_map_operator (by decide +kernel) (by simp) .minus).1⟩

end State

end PocketCalculator
