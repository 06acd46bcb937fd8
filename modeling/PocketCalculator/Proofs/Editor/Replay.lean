import PocketCalculator.Proofs.Editor.Evaluable
import PocketCalculator.Proofs.Editor.Recall

/-!
# The recorded calculations

In a run one calculation is recorded for each moment at which the equals key finds a formula with a
finite value (`pressAll_snd`). Without loading, the formula of a recorded calculation is clean: it
is a typed text, grouped, with all parentheses closed. So it can be loaded into a new editor and is
evaluated to the recorded result again (`recorded_pressAll`).
-/

namespace PocketCalculator

/-- The keys put no blank into a formula. -/
theorem Ending.TypedFrom.isBlank_eq_false {e : Ending} {count : Nat} {t : Text}
    (h : Ending.TypedFrom e count t) : ∀ c ∈ t, isBlank c = false := by
  induction t generalizing e count with
  | nil => simp
  | cons c t ih =>
    have hc := Ending.of_admits (p := fun c => !isBlank c) h.1 fun e => by cases e <;> decide
    exact List.forall_mem_cons.2 ⟨by simpa using hc, ih h.2.2⟩

/-- So only the decimal separator can be one. -/
theorem Separators.clean_of_typed {s : Separators} {t : Text} (hs : s.Accepted)
    (hdecimal : isBlank s.decimal = false) (hgrouped : s.Grouped t) (ht : Typed (s.bare t)) :
    s.Clean t := by
  have hvisible : ∀ c ∈ s.bare t, s.Visible c := fun c hc =>
    ⟨ht.isBlank_eq_false c hc, fun _ => hdecimal⟩
  refine clean_of_bare hs hgrouped ?_ ?_ ht.closes
  · exact fun c hc => hvisible c (List.mem_of_head? hc)
  · exact fun c hc => hvisible c (List.mem_of_getLast? hc)

namespace State

variable {s : Separators} {st : State} {keys : List Key} {calculation : Calculation}

/-! ### The moments of a run -/

/-- The keys of a run, each with the state that it finds. -/
def moments (s : Separators) (st : State) : List Key → List (State × Key)
  | [] => []
  | key :: keys => (st, key) :: moments s (st.press s key).1 keys

/-- The calculation that a key completes in the state that it finds. -/
def completed? (s : Separators) (moment : State × Key) : Option Calculation :=
  if moment.2 = .equals then moment.1.calculation? s else none

theorem press_snd (s : Separators) (st : State) (key : Key) :
    (st.press s key).2 = completed? s (st, key) := by
  cases key with
  | equals => exact pressEquals_snd s st
  | _ => rfl

/-- What a run records. -/
theorem pressAll_snd (s : Separators) (st : State) (keys : List Key) :
    (st.pressAll s keys).2 = (moments s st keys).filterMap (completed? s) := by
  induction keys generalizing st with
  | nil => rfl
  | cons key keys ih =>
    have hpress := press_snd s st key
    rw [pressAll, moments]
    dsimp only
    rw [ih, hpress]
    cases hcompleted : completed? s (st, key) with
    | none => rw [List.filterMap_cons_none hcompleted]; rfl
    | some calculation => rw [List.filterMap_cons_some hcompleted]; rfl

/-! ### The states of a run -/

/-- What a run without loading keeps up. -/
structure Sound (s : Separators) (st : State) : Prop where
  neat : s.Neat st.formula
  consistent : st.Consistent
  typed : (st.bare s).FormulaTyped

theorem sound_initial (hs : s.Accepted) : Sound s initial := by
  refine ⟨hs.neat_zero, consistent_initial, ?_⟩
  rw [bare_initial hs]
  exact fun _ => typed_singleton (by decide) (by decide)

theorem Sound.press (h : Sound s st) (hs : s.Accepted) {key : Key} (hkey : ∀ t, key ≠ .load t) :
    Sound s (st.press s key).1 := by
  refine ⟨neat_press hs h.neat hkey, h.consistent.press hs.sparesParens key, ?_⟩
  rw [(bare_press hs h.neat hkey).1]
  exact formulaTyped_pressBare h.typed (h.consistent.bare hs) key

theorem Sound.pressAll (h : Sound s st) (hs : s.Accepted)
    (hkeys : ∀ key ∈ keys, ∀ t, key ≠ .load t) : Sound s (st.pressAll s keys).1 := by
  induction keys generalizing st with
  | nil => exact h
  | cons key keys ih =>
    obtain ⟨hkey, hkeys⟩ := List.forall_mem_cons.1 hkeys
    exact ih (h.press hs hkey) hkeys

/-- Every calculation of a run is that of a state in it. -/
theorem Sound.exists_of_mem (h : Sound s st) (hs : s.Accepted)
    (hkeys : ∀ key ∈ keys, ∀ t, key ≠ .load t) (hmem : calculation ∈ (st.pressAll s keys).2) :
    ∃ st', Sound s st' ∧ st'.calculation? s = some calculation := by
  induction keys generalizing st with
  | nil => cases hmem
  | cons key keys ih =>
    obtain ⟨hkey, hkeys⟩ := List.forall_mem_cons.1 hkeys
    rcases List.mem_append.1 hmem with hmem | hmem
    · rw [Option.mem_toList, press_snd] at hmem
      unfold completed? at hmem
      split at hmem
      · exact ⟨st, h, hmem⟩
      · cases hmem
    · exact ih (h.press hs hkey) hkeys hmem

/-- The formula with all parentheses closed is clean and has none open. -/
theorem Sound.clean_closed (h : Sound s st) (hs : s.Accepted) (hdecimal : isBlank s.decimal = false)
    (hmark : st.mark ≠ .afterError) : s.Clean st.closed ∧ unmatched st.closed = 0 := by
  have htyped : Typed (st.bare s).formula := h.typed hmark
  have hcount : st.openCount = unmatched (st.bare s).formula := (h.consistent.bare hs).counted
  have hbare : s.bare st.closed =
      (st.bare s).formula ++ List.replicate (unmatched (st.bare s).formula) ')' := by
    rw [← closed_bare hs, ← hcount]
    rfl
  obtain ⟨hclosed, hnone⟩ := typed_closed htyped
  rw [← hbare] at hclosed hnone
  have hgrouped : s.Grouped st.closed := by
    refine h.neat.grouped.append hs fun c hc => ?_
    rw [List.eq_of_mem_replicate hc]
    exact loose_close hs
  refine ⟨Separators.clean_of_typed hs hdecimal hgrouped hclosed, ?_⟩
  rw [← Separators.unmatched_bare hs.sparesParens, hnone]

/-- Without loading, a run with accepted separators, the decimal one not blank, records one
calculation for each moment at which the equals key finds a formula with a finite value, in order,
and nothing else. The formula of each is shown as it is when it is loaded into a new editor, with no
open parentheses, and there the equals key shows the same result and records the same
calculation. -/
theorem recorded_pressAll (hs : s.check = .ok ()) (hdecimal : isBlank s.decimal = false)
    (hkeys : ∀ key ∈ keys, ∀ t, key ≠ .load t) :
    let recorded := (initial.pressAll s keys).2
    recorded = (moments s initial keys).filterMap (completed? s) ∧
      ∀ calculation ∈ recorded,
        let loaded := initial.load s calculation.formula
        loaded.formula = calculation.formula ∧ loaded.readout = calculation.formula ∧
          loaded.openCount = 0 ∧
          (loaded.pressEquals s).1.readout = calculation.result ∧
          (loaded.pressEquals s).2 = some calculation := by
  have hs := Separators.check_eq_ok_iff.1 hs
  refine ⟨pressAll_snd s initial keys, ?_⟩
  intro calculation hmem loaded
  obtain ⟨st, hst, hcalculation⟩ := (sound_initial hs).exists_of_mem hs hkeys hmem
  obtain ⟨hne, hmark, value, hvalue, hfinite, rfl⟩ := calculation?_eq_some_iff.1 hcalculation
  obtain ⟨hclean, hcount⟩ := hst.clean_closed hs hdecimal hmark
  have hloaded : loaded = ⟨st.closed, st.closed, [], 0, .idle⟩ := by
    rw [← hcount]
    exact hclean.load_eq initial
  have hclosed : loaded.closed = st.closed := by
    rw [hloaded]
    exact List.append_nil st.closed
  have hnonempty : st.closed ≠ [] := List.append_ne_nil_of_left_ne_nil hne _
  have hagain : loaded.calculation? s = some ⟨st.closed, s.readout value⟩ := by
    refine calculation?_eq_some_iff.2 ⟨?_, ?_, value, hclosed ▸ hvalue, hfinite, by rw [hclosed]⟩
    · rw [hloaded]
      exact hnonempty
    · rw [hloaded]
      simp
  rw [pressEquals_of_some hagain, hloaded]
  exact ⟨rfl, rfl, rfl, rfl, rfl⟩

/-- A sum whose parenthesis is still open, and a product of its result. -/
theorem recorded_pressAll_comma :
    let s : Separators := ⟨',', '.'⟩
    let keys : List Key := [.open, .digit 1, .point, .digit 5, .operator .plus, .digit 2, .equals,
      .operator .times, .digit 1, .digit 0, .digit 0, .digit 0, .equals]
    let recorded := (initial.pressAll s keys).2
    recorded = [⟨"(1,5+2)".toList, "3,5".toList⟩, ⟨"3,5×1.000".toList, "3.500".toList⟩] ∧
      ∀ calculation ∈ recorded,
        ((initial.load s calculation.formula).pressEquals s).2 = some calculation := by
  intro s keys recorded
  have hkeys : ∀ key ∈ keys, ∀ t, key ≠ .load t := by simp [keys]
  have hs : s.check = .ok () := by decide +kernel
  obtain ⟨-, hreplay⟩ := recorded_pressAll hs (by decide) hkeys
  exact ⟨by decide +kernel, fun calculation hmem => (hreplay calculation hmem).2.2.2.2⟩

end State

end PocketCalculator
