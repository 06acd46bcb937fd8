import PocketCalculator.Proofs.Editor.Neat
import PocketCalculator.Proofs.Number.Parentheses

/-!
# The editor on bare texts

The keys do to bare texts what they do to displayed ones, whatever the acceptable separators are:
`bare_press` for a key, `bare_pressAll` for a run. The bare editor never groups and has no
separators to look at, so what it does is the same in every locale.

Loading a text is left out: the text is written with the separators of one locale.
-/

namespace PocketCalculator

/-- A calculation with bare texts. -/
def Calculation.bare (s : Separators) (c : Calculation) : Calculation :=
  ⟨s.bare c.formula, s.bare c.result⟩

namespace State

variable {s : Separators} {st : State} {t : Text} {c : Char}

/-! ### The bare editor -/

/-- A state with bare texts. -/
def bare (s : Separators) (st : State) : State :=
  { st with
    formula := s.bare st.formula
    readout := s.bare st.readout
    evaluated := s.bare st.evaluated }

/-- A digit, without grouping the formula. -/
def pressDigitBare (d : Fin 10) (st : State) : State :=
  let st := st.withoutError []
  if st.formula = ['0'] ∧ d.val = 0 then st
  else
    ((st.withoutZero.multiplyAfter endsGroup).append [Nat.digitChar d]).marked .idle |>.shown

/-- Backspace, without grouping the formula. -/
def pressBackspaceBare (st : State) : State :=
  if st.isError then st.reset
  else
    let formula := st.formula.dropLast
    let st :=
      if formula = [] ∨ formula = ['0'] then
        { st with formula := ['0'], openCount := 0, mark := .cleared }
      else { st with formula, openCount := unmatched formula }
    st.shown

/-- The equals key, with the decimal text of the value as the readout. -/
def pressEqualsBare (st : State) : State × Option Calculation :=
  if st.formula.isEmpty || st.isError then (st, none)
  else
    let failed : State :=
      { st with
        formula := errorMarker, readout := errorMarker, openCount := 0, mark := .afterError }
    match evaluate (st.closed.map (Separators.plainChar {})) with
    | .error _ => (failed, none)
    | .ok value =>
      if value.isFinite then
        let result := (doubleText? value).getD errorMarker
        (⟨result, result, st.closed, 0, .afterEvaluation⟩, some ⟨st.closed, result⟩)
      else (failed, none)

/-- What a key does to bare texts. -/
def pressBare (st : State) : Key → State × Option Calculation
  | .digit d => (st.pressDigitBare d, none)
  | .point => (st.pressPoint {}, none)
  | .open => (st.pressOpen, none)
  | .close => (st.pressClose, none)
  | .operator op => (st.pressOperator {} op, none)
  | .negate => (st.pressNegate, none)
  | .equals => st.pressEqualsBare
  | .backspace => (st.pressBackspaceBare, none)
  | .reset => (st.reset, none)
  | .load _ => (st, none)

/-- What some keys do to bare texts. -/
def pressAllBare (st : State) : List Key → State × List Calculation
  | [] => (st, [])
  | key :: keys =>
    let step := st.pressBare key
    let rest := pressAllBare step.1 keys
    (rest.1, step.2.toList ++ rest.2)

/-! ### Parts of a key -/

theorem bare_withoutError (st : State) (ht : s.bare t = t) :
    (st.withoutError t).bare s = (st.bare s).withoutError t := by
  have herror : (st.bare s).isError = st.isError := rfl
  unfold withoutError
  rw [herror]
  split
  · rw [bare, ht]
    rfl
  · rfl

theorem bare_withoutZero (hs : s.Accepted) (h : s.Neat st.formula) :
    st.withoutZero.bare s = (st.bare s).withoutZero := by
  have hzero : (st.bare s).formula = ['0'] ↔ st.formula = ['0'] := h.eq_zero_iff hs
  unfold withoutZero
  by_cases hformula : st.formula = ['0']
  · rw [if_pos hformula, if_pos (hzero.2 hformula)]
    rfl
  · rw [if_neg hformula, if_neg fun e => hformula (hzero.1 e)]

theorem bare_append (st : State) (t : Text) :
    (st.append t).bare s = (st.bare s).append (s.bare t) := by
  rw [bare, append, Separators.bare_append]
  rfl

theorem bare_multiplyAfter (hs : s.Accepted) (h : s.Neat st.formula) {p : Char → Bool}
    (hp : ∀ c, p c → isReserved c) :
    (st.multiplyAfter p).bare s = (st.bare s).multiplyAfter p := by
  have hany : (st.bare s).formula.getLast?.any p = st.formula.getLast?.any p :=
    h.any_getLast? hs hp
  have htimes : s.bare [Operator.times.glyph] = [Operator.times.glyph] :=
    hs.bare_singleton (isReserved_glyph .times)
  unfold multiplyAfter
  rw [hany]
  split
  · rw [bare_append, htimes]
  · rfl

theorem bare_regroup (s : Separators) (st : State) : (st.regroup s).bare s = st.bare s := by
  rw [bare, regroup, Separators.bare_regroup]
  rfl

theorem bare_marked (m : Mark) (st : State) : (st.marked m).bare s = (st.bare s).marked m := rfl

theorem bare_shown (st : State) : st.shown.bare s = (st.bare s).shown := rfl

/-! ### The keys -/

theorem bare_pressDigit (hs : s.Accepted) (h : s.Neat st.formula) (d : Fin 10) :
    (st.pressDigit s d).bare s = (st.bare s).pressDigitBare d := by
  have hclear := withoutError_induction (motive := s.Neat) h s.neat_nil
  have hdigit : s.bare [Nat.digitChar d] = [Nat.digitChar d] :=
    hs.bare_singleton (isReserved_digitChar d)
  unfold pressDigit pressDigitBare
  dsimp only
  rw [← bare_withoutError st (Separators.bare_nil s)]
  generalize st.withoutError [] = st' at hclear
  have hzero : (st'.bare s).formula = ['0'] ↔ st'.formula = ['0'] := hclear.eq_zero_iff hs
  have hnonzero := withoutZero_induction hclear s.neat_nil
  by_cases hlone : st'.formula = ['0'] ∧ d.val = 0
  · rw [if_pos hlone, if_pos ⟨hzero.2 hlone.1, hlone.2⟩]
  · rw [if_neg hlone, if_neg fun e => hlone ⟨hzero.1 e.1, e.2⟩, bare_shown, bare_marked,
      bare_regroup, bare_append, hdigit,
      bare_multiplyAfter hs hnonzero fun _ => isReserved_of_endsGroup, bare_withoutZero hs hclear]

theorem takeWhile_bare {p : Char → Bool} (hchar : ∀ c, p (s.bareChar c) = p c)
    (hgrouping : p s.grouping) (t : Text) : (s.bare t).takeWhile p = s.bare (t.takeWhile p) := by
  have hcomp : p ∘ s.bareChar = p := funext hchar
  rw [Separators.bare, List.takeWhile_map, hcomp, Separators.bare]
  congr 1
  induction t with
  | nil => rfl
  | cons c t ih =>
    by_cases hc : c = s.grouping
    · subst hc
      rw [List.takeWhile_cons_of_pos hgrouping]
      simpa [Separators.ungroup] using ih
    · rw [Separators.ungroup_cons_of_ne hc]
      by_cases hp : p c
      · rw [List.takeWhile_cons_of_pos hp, List.takeWhile_cons_of_pos hp,
          Separators.ungroup_cons_of_ne hc, ih]
      · rw [List.takeWhile_cons_of_neg hp, List.takeWhile_cons_of_neg hp]
        rfl

theorem bare_reverse (s : Separators) (t : Text) : s.bare t.reverse = (s.bare t).reverse := by
  rw [Separators.bare, Separators.ungroup, List.filter_reverse, List.map_reverse]
  rfl

theorem lastNumber_bare (hs : s.Accepted) (t : Text) :
    lastNumber (s.bare t) = s.bare (lastNumber t) := by
  have hchar : ∀ c, (!endsNumber (s.bareChar c)) = !endsNumber c := fun c => by
    rw [hs.apply_bareChar fun _ => isReserved_of_endsNumber]
  have hgrouping : (!endsNumber s.grouping) = true := by
    by_contra hc
    exact hs.ne_grouping (isReserved_of_endsNumber (by simpa using hc)) rfl
  rw [lastNumber, lastNumber, ← bare_reverse,
    takeWhile_bare (p := fun c => !endsNumber c) hchar hgrouping, bare_reverse]

theorem known_lastNumber (h : s.Known t) : s.Known (lastNumber t) := by
  intro c hc
  have hmem := (List.takeWhile_sublist _).mem (List.mem_reverse.1 hc)
  exact h c (List.mem_reverse.1 hmem)

/-- The point of a bare text is the decimal separator of the displayed one. -/
theorem contains_bare (hs : s.Accepted) (h : s.Known t) :
    (s.bare t).contains '.' = t.contains s.decimal := by
  rw [Bool.eq_iff_iff, List.contains_iff_mem, List.contains_iff_mem]
  constructor
  · intro hpoint
    obtain ⟨c, hc, he⟩ := List.mem_map.1 hpoint
    exact h.eq_decimal hc he ▸ (Separators.mem_ungroup.1 hc).1
  · intro hdecimal
    exact List.mem_map.2
      ⟨s.decimal, Separators.mem_ungroup.2 ⟨hdecimal, hs.1⟩, s.bareChar_decimal⟩

theorem bare_pressPoint (hs : s.Accepted) (h : s.Neat st.formula) :
    (st.pressPoint s).bare s = (st.bare s).pressPoint {} := by
  have hclear := withoutError_induction (motive := s.Neat) h s.neat_nil
  have htimes : s.bare [Operator.times.glyph, '0'] = [Operator.times.glyph, '0'] := by
    refine hs.bare_eq_self fun c hc => ?_
    rcases List.mem_pair.1 hc with rfl | rfl
    · exact isReserved_glyph .times
    · exact Separators.isReserved_of_isDigit (by decide)
  unfold pressPoint
  dsimp only
  rw [← bare_withoutError st (Separators.bare_nil s)]
  generalize st.withoutError [] = st' at hclear
  have hcontains : (lastNumber (st'.bare s).formula).contains '.' =
      (lastNumber st'.formula).contains s.decimal :=
    (congrArg (·.contains '.') (lastNumber_bare hs st'.formula)).trans
      (contains_bare hs (known_lastNumber hclear.known))
  have hlast : (st'.bare s).formula.getLast? = st'.formula.getLast?.map s.bareChar :=
    hclear.grouped.getLast?_bare
  rw [hcontains, hlast]
  split
  · rfl
  · rw [bare_shown, bare_marked, bare_append, hs.bare_decimal]
    cases st'.formula.getLast? with
    | none =>
      dsimp only [Option.map_none]
      rw [bare_append, hs.bare_zero]
    | some c =>
      dsimp only [Option.map_some]
      rw [hs.apply_bareChar (p := Char.isDigit) fun _ => Separators.isReserved_of_isDigit,
        hs.apply_bareChar fun _ => isReserved_of_endsGroup]
      split
      · rfl
      · split
        · rw [bare_append, htimes]
        · rw [bare_append, hs.bare_zero]

theorem bare_append_count (st : State) (t : Text) (count : Nat) :
    State.bare s { st.append t with openCount := count } =
      { (st.bare s).append (s.bare t) with openCount := count } := by
  rw [bare, append, Separators.bare_append]
  rfl

theorem bare_pressOpen (hs : s.Accepted) (h : s.Neat st.formula) :
    st.pressOpen.bare s = (st.bare s).pressOpen := by
  have hclear := withoutError_induction (motive := s.Neat) h s.neat_nil
  have hnonzero := withoutZero_induction hclear s.neat_nil
  have hopen : s.bare ['('] = ['('] :=
    hs.bare_singleton (Separators.isReserved_of_mem (by decide))
  have hends : ∀ c, c.isDigit || endsGroup c → isReserved c := fun c hc =>
    (Bool.or_eq_true _ _ ▸ hc).elim Separators.isReserved_of_isDigit isReserved_of_endsGroup
  unfold pressOpen
  dsimp only
  rw [← bare_withoutError st (Separators.bare_nil s), ← bare_withoutZero hs hclear,
    ← bare_multiplyAfter hs hnonzero hends, bare_shown, bare_marked, bare_append_count, hopen]
  rfl

theorem bare_pressClose (hs : s.Accepted) (st : State) :
    st.pressClose.bare s = (st.bare s).pressClose := by
  have hclose : s.bare [')'] = [')'] :=
    hs.bare_singleton (Separators.isReserved_of_mem (by decide))
  have hcount : (st.bare s).openCount = st.openCount := rfl
  unfold pressClose
  rw [hcount]
  split
  · rfl
  · rw [bare_shown, bare_marked, bare_append_count, hclose]

theorem getLast?_bare_any (hs : s.Accepted) (h : s.Neat t) :
    ((s.bare t).getLast?.any fun c => Operator.isGlyph c || c == '.') =
      t.getLast?.any fun c => Operator.isGlyph c || c == s.decimal := by
  rw [h.grouped.getLast?_bare]
  cases hlast : t.getLast? with
  | none => rfl
  | some c =>
    have hmem : c ∈ s.ungroup t :=
      Separators.mem_ungroup.2 ⟨List.mem_of_getLast? hlast, h.grouped.getLast?_ne hlast⟩
    have hpoint : (s.bareChar c == '.') = (c == s.decimal) := by
      rw [Bool.eq_iff_iff, beq_iff_eq, beq_iff_eq]
      constructor
      · exact h.known.eq_decimal hmem
      · rintro rfl
        exact s.bareChar_decimal
    rw [Option.map_some, Option.any_some, Option.any_some, hpoint,
      hs.apply_bareChar (p := Operator.isGlyph) fun _ => Separators.isReserved_of_isGlyph]

theorem operatorPlace_bare (hs : s.Accepted) (h : s.Neat t) :
    operatorPlace {} (s.bare t) = s.bare (operatorPlace s t) := by
  have hend := getLast?_bare_any hs h
  unfold operatorPlace
  rw [hend]
  split
  · rename_i hlast
    have hshorter : s.Neat t.dropLast := by
      refine ⟨h.grouped.dropLast hs fun c hc => ?_, h.known.dropLast⟩
      rw [hc, Option.any_some, Bool.or_eq_true, beq_iff_eq] at hlast
      exact hlast.elim (loose_of_isGlyph hs) Or.inr
    dsimp only
    rw [← h.grouped.bare_dropLast,
      hshorter.any_getLast? hs fun _ => Separators.isReserved_of_isGlyph]
    split
    · rw [hshorter.grouped.bare_dropLast]
    · rfl
  · rfl

theorem bare_pressOperator (hs : s.Accepted) (h : s.Neat st.formula) (op : Operator) :
    (st.pressOperator s op).bare s = (st.bare s).pressOperator {} op := by
  have hglyph : s.bare [op.glyph] = [op.glyph] :=
    hs.bare_singleton (isReserved_glyph op)
  have hclear := withoutError_induction (motive := s.Neat) h hs.neat_zero
  unfold pressOperator
  dsimp only
  rw [← bare_withoutError st hs.bare_zero]
  generalize st.withoutError ['0'] = st' at hclear
  have hplace := neat_operatorPlace hs hclear
  have hbare : operatorPlace {} (st'.bare s).formula = s.bare (operatorPlace s st'.formula) :=
    operatorPlace_bare hs hclear
  rw [hbare]
  generalize operatorPlace s st'.formula = place at hplace
  have hleading : (s.bare place).getLast?.all (· = '(') = place.getLast?.all (· = '(') := by
    rw [hplace.grouped.getLast?_bare]
    cases place.getLast? with
    | none => rfl
    | some c =>
      exact hs.apply_bareChar (p := (· = '(')) (fun c hc => Separators.isReserved_of_mem
        (by simp [of_decide_eq_true hc])) c
  rw [hleading, bare_shown, bare_marked]
  split
  · rfl
  · rw [bare, Separators.bare_append, hglyph]
    rfl

theorem bare_pressNegate (hs : s.Accepted) (h : s.Neat st.formula) :
    st.pressNegate.bare s = (st.bare s).pressNegate := by
  have hminus : s.bare [Operator.minus.glyph] = [Operator.minus.glyph] :=
    hs.bare_singleton (isReserved_glyph .minus)
  have hzero : (st.bare s).formula = ['0'] ↔ st.formula = ['0'] := h.eq_zero_iff hs
  unfold pressNegate
  by_cases hformula : st.formula = ['0']
  · rw [if_pos hformula, if_pos (hzero.2 hformula), bare_shown, bare_marked, bare, hminus]
    rfl
  · rw [if_neg hformula, if_neg fun e => hformula (hzero.1 e)]

/-- Without its last character a formula is a lone zero, or nothing, exactly if its bare text is. -/
theorem dropLast_bare_iff (hs : s.Accepted) (h : s.Neat t) :
    ((s.bare t).dropLast = [] ∨ (s.bare t).dropLast = ['0']) ↔
      (t.dropLast = [] ∨ t.dropLast = ['0']) := by
  rw [← h.grouped.bare_dropLast]
  constructor
  · intro hshort
    have hlength : (s.bare t.dropLast).length ≤ 1 := by
      rcases hshort with e | e
      · rw [e]; decide
      · rw [e]; decide
    rw [h.grouped.bare_dropLast, List.length_dropLast, Separators.bare, List.length_map] at hlength
    have hsame : t = s.ungroup t := by
      rw [← Separators.regroup_eq_ungroup (by omega)]
      exact h.grouped.symm
    have hbare : s.ungroup t.dropLast = t.dropLast := by
      refine Separators.ungroup_eq_self fun hmem => ?_
      rw [hsame] at hmem
      exact (Separators.mem_ungroup.1 ((List.dropLast_sublist _).mem hmem)).2 rfl
    have hneat : s.Neat t.dropLast := by
      refine ⟨?_, h.known.dropLast⟩
      rw [Separators.Grouped, Separators.regroup_eq_ungroup, hbare]
      rw [hbare, List.length_dropLast, hsame]
      omega
    exact hshort.imp (hneat.eq_nil_iff hs).1 (hneat.eq_zero_iff hs).1
  · rintro (e | e)
    · exact Or.inl (by rw [e]; rfl)
    · right
      rw [e]
      exact hs.bare_zero

theorem bare_reset (hs : s.Accepted) (st : State) : st.reset.bare s = (st.bare s).reset := by
  rw [bare, reset, hs.bare_zero]
  rfl

theorem bare_pressBackspace (hs : s.Accepted) (h : s.Neat st.formula) :
    (st.pressBackspace s).bare s = (st.bare s).pressBackspaceBare := by
  have herror : (st.bare s).isError = st.isError := rfl
  have hformula : (st.bare s).formula = s.bare st.formula := rfl
  have hiff := dropLast_bare_iff hs h
  unfold pressBackspace pressBackspaceBare
  rw [herror]
  split
  · exact bare_reset hs st
  · dsimp only
    rw [hformula, bare_shown, bare_regroup]
    by_cases hshort : st.formula.dropLast = [] ∨ st.formula.dropLast = ['0']
    · rw [if_pos hshort, if_pos (hiff.2 hshort), bare, hs.bare_zero]
      rfl
    · rw [if_neg hshort, if_neg fun e => hshort (hiff.1 e), bare, h.grouped.bare_dropLast,
        ← h.grouped.bare_dropLast, Separators.unmatched_bare hs.sparesParens]
      rfl

theorem closed_bare (hs : s.Accepted) (st : State) : (st.bare s).closed = s.bare st.closed := by
  have hclose : s.bare (List.replicate st.openCount ')') = List.replicate st.openCount ')' :=
    hs.bare_eq_self fun c hc => by
      rw [List.eq_of_mem_replicate hc]
      exact Separators.isReserved_of_mem (by decide)
  rw [closed, closed, Separators.bare_append, hclose]
  rfl

theorem bare_pressEquals (hs : s.Accepted) (h : s.Neat st.formula) :
    (st.pressEquals s).1.bare s = (st.bare s).pressEqualsBare.1 ∧
      (st.pressEquals s).2.map (Calculation.bare s) = (st.bare s).pressEqualsBare.2 := by
  have hempty : ((st.bare s).formula.isEmpty || (st.bare s).isError) =
      (st.formula.isEmpty || st.isError) := by
    have hnil : (st.bare s).formula = [] ↔ st.formula = [] := h.eq_nil_iff hs
    have hisEmpty : (st.bare s).formula.isEmpty = st.formula.isEmpty := by
      rw [Bool.eq_iff_iff, List.isEmpty_iff, List.isEmpty_iff, hnil]
    rw [hisEmpty]
    rfl
  have hexpression : (st.bare s).closed.map (Separators.plainChar {}) = s.plain st.closed := by
    rw [closed_bare hs, Separators.plain_eq_map_bare]
  have hmarker : s.bare errorMarker = errorMarker :=
    hs.bare_eq_self fun c hc => (Separators.errorMarker_isReserved c hc).1
  have hfailed : State.bare s { st with
      formula := errorMarker, readout := errorMarker, openCount := 0, mark := .afterError } =
      { st.bare s with
        formula := errorMarker, readout := errorMarker, openCount := 0, mark := .afterError } := by
    rw [bare, hmarker]
    rfl
  unfold pressEquals pressEqualsBare
  rw [hempty]
  split
  · exact ⟨rfl, rfl⟩
  · dsimp only
    rw [hexpression]
    cases evaluate (s.plain st.closed) with
    | error e => exact ⟨hfailed, rfl⟩
    | ok value =>
      dsimp only
      by_cases hfinite : value.isFinite
      · obtain ⟨t, ht⟩ := exists_doubleText?_eq_some hfinite
        have hreadout := hs.bare_readout ht
        rw [if_pos hfinite, if_pos hfinite, ht, Option.getD_some, closed_bare hs, ← hreadout]
        exact ⟨rfl, rfl⟩
      · rw [if_neg hfinite, if_neg hfinite]
        exact ⟨hfailed, rfl⟩

/-- Every key but loading does to the bare texts what it does to the displayed ones. -/
theorem bare_press (hs : s.Accepted) (h : s.Neat st.formula) {key : Key}
    (hkey : ∀ t, key ≠ .load t) :
    (st.press s key).1.bare s = ((st.bare s).pressBare key).1 ∧
      (st.press s key).2.map (Calculation.bare s) = ((st.bare s).pressBare key).2 := by
  cases key with
  | digit d => exact ⟨bare_pressDigit hs h d, rfl⟩
  | point => exact ⟨bare_pressPoint hs h, rfl⟩
  | «open» => exact ⟨bare_pressOpen hs h, rfl⟩
  | close => exact ⟨bare_pressClose hs st, rfl⟩
  | operator op => exact ⟨bare_pressOperator hs h op, rfl⟩
  | negate => exact ⟨bare_pressNegate hs h, rfl⟩
  | equals => exact bare_pressEquals hs h
  | backspace => exact ⟨bare_pressBackspace hs h, rfl⟩
  | reset => exact ⟨bare_reset hs st, rfl⟩
  | load number => exact absurd rfl (hkey number)

/-- Without loading, a run does to the bare texts what it does to the displayed ones. -/
theorem bare_pressAll (hs : s.Accepted) (h : s.Neat st.formula) {keys : List Key}
    (hkeys : ∀ key ∈ keys, ∀ t, key ≠ .load t) :
    (st.pressAll s keys).1.bare s = ((st.bare s).pressAllBare keys).1 ∧
      (st.pressAll s keys).2.map (Calculation.bare s) = ((st.bare s).pressAllBare keys).2 := by
  induction keys generalizing st with
  | nil => exact ⟨rfl, rfl⟩
  | cons key keys ih =>
    obtain ⟨hkey, hkeys⟩ := List.forall_mem_cons.1 hkeys
    obtain ⟨hstate, hcalculation⟩ := bare_press hs h hkey
    obtain ⟨hrun, hcalculations⟩ := ih (neat_press hs h hkey) hkeys
    rw [hstate] at hrun hcalculations
    rw [pressAll, pressAllBare]
    dsimp only
    rw [List.map_append, hrun, hcalculations, ← Option.toList_map, hcalculation]
    exact ⟨rfl, rfl⟩

end State

end PocketCalculator
