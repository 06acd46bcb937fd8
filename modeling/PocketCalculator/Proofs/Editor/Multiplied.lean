import PocketCalculator.Proofs.Editor.Neighbours

/-!
# Multiplications that the keys insert

Without loading, a number or a group that follows another one is multiplied with it, but for one
case: the key that opens a group looks for a digit, a closing parenthesis or a percent sign before
it, and not for the decimal separator that ends a number. So a multiplication is left out exactly
where that key is pressed right behind a decimal separator (`multiplied_pressAll`).
-/

namespace PocketCalculator

open Ending

variable {s : Separators} {e : Ending} {c d : Char} {t u : Text}

/-! ### Neighbours of groups and percentages -/

theorem before_open_of_admits (hc : e.admits c) (h : (e.after c).admits '(') :
    c = '(' ∨ isInfix c ∨ c = '.' := by
  rcases cases_of_admits hc with hdigit | rfl | rfl | rfl | rfl | hinfix
  · rw [after_digit hdigit] at h
    split at h <;> cases h
  · exact Or.inr (Or.inr rfl)
  · exact Or.inl rfl
  · cases h
  · cases h
  · exact Or.inr (Or.inl hinfix)

theorem not_number_of_admits (hc : c = ')' ∨ c = '%') (h : (e.after c).admits d) :
    d.isDigit = false ∧ d ≠ '.' := by
  have hafter : e.after c = .close ∨ e.after c = .percent := by
    rcases hc with rfl | rfl
    · exact Or.inl rfl
    · exact Or.inr rfl
  constructor
  · by_contra hdigit
    obtain ⟨hclose, hpercent⟩ := (admits_digit (by simpa using hdigit)).1 h
    exact hafter.elim hclose hpercent
  · rintro rfl
    rw [admits_point.1 h] at hafter
    simp at hafter

/-- Behind a character outside of numbers stands no grouping separator. -/
theorem Separators.Grouped.ne_grouping_of_isNumeric_left (h : s.Grouped (t ++ c :: d :: u))
    (hc : s.isNumeric c = false) : d ≠ s.grouping := by
  have hsplit : t ++ c :: d :: u = (t ++ [c]) ++ d :: u := by simp
  rw [hsplit] at h
  have hrest : s.Grouped (d :: u) := (h.of_append (by simpa using hc)).2
  have hhead := hrest.head?_eq
  rintro rfl
  have hmem := List.mem_of_head? (hhead.symm.trans List.head?_cons)
  exact (Separators.mem_ungroup.1 hmem).2 rfl

namespace State

variable {st : State} {keys : List Key}

/-! ### Groups behind decimal separators -/

/-- Whether no opening parenthesis of a bare text stands right behind a point. -/
def Apart (t : Text) : Prop := t.IsChain fun c d => c = '.' → d ≠ '('

theorem Apart.of_append (h : Apart (t ++ u)) : Apart t :=
  (List.isChain_append.1 h).1

theorem Apart.dropLast (h : Apart t) : Apart t.dropLast := by
  obtain ⟨last, e⟩ := List.dropLast_prefix t
  rw [← e] at h
  exact h.of_append

theorem Apart.concat (h : Apart t) (hc : c ≠ '(') : Apart (t ++ [c]) :=
  Separators.isChain_concat.2 ⟨h, fun _ _ _ => hc⟩

theorem Apart.concat_open (h : Apart t) (hlast : t.getLast? ≠ some '.') : Apart (t ++ ['(']) :=
  Separators.isChain_concat.2 ⟨h, fun _ he hpoint => absurd (hpoint ▸ he) hlast⟩

theorem apart_of_not_mem (h : '(' ∉ t) : Apart t := by
  induction t with
  | nil => exact List.isChain_nil
  | cons c t ih =>
    rw [List.mem_cons, not_or] at h
    refine List.isChain_cons.2 ⟨?_, ih h.2⟩
    rintro d hd - rfl
    exact h.2 (List.mem_of_mem_head? hd)

theorem Apart.before_open (h : Apart (t ++ c :: '(' :: u)) : c ≠ '.' := fun e =>
  (List.isChain_append_cons_cons.1 h).2.1 e rfl

theorem open_not_mem_of_doubleText?_eq_some {value : Float} (ht : doubleText? value = some t) :
    '(' ∉ t := by
  obtain ⟨v, e, hchars⟩ := exists_of_doubleText?_eq_some ht
  have hv : '(' ∉ v := fun hmem => absurd (hchars _ hmem) (by decide)
  rcases e with rfl | rfl
  · exact hv
  · simpa using hv

theorem apart_pressDigitBare (h : Apart st.formula) (d : Fin 10) :
    Apart (st.pressDigitBare d).formula := by
  have hclear := withoutError_induction (motive := Apart) h List.isChain_nil
  unfold pressDigitBare
  dsimp only
  split
  · exact hclear
  · have hnonzero := withoutZero_induction (motive := Apart) hclear List.isChain_nil
    have htimes := hnonzero.concat (c := Operator.times.glyph) (by decide)
    have hbefore := multiplyAfter_induction hnonzero htimes endsGroup
    have hdigits : ∀ d : Fin 10, Nat.digitChar d ≠ '(' := by decide
    exact hbefore.concat (hdigits d)

theorem apart_pressPoint (h : Apart st.formula) : Apart (st.pressPoint {}).formula := by
  have hclear := withoutError_induction (motive := Apart) h List.isChain_nil
  have hzero : ∀ {t}, Apart t → Apart (t ++ ['0']) := fun ht => ht.concat (by decide)
  have hpoint : ∀ {t}, Apart t → Apart (t ++ ['.']) := fun ht => ht.concat (by decide)
  unfold pressPoint
  dsimp only
  split
  · exact hclear
  · split
    · split
      · exact hpoint hclear
      · split
        · have htimes := hclear.concat (c := Operator.times.glyph) (by decide)
          have hnumber := hzero htimes
          rw [List.append_assoc] at hnumber
          exact hpoint hnumber
        · exact hpoint (hzero hclear)
    · exact hpoint (hzero hclear)

/-- The key looks for digits, parentheses and percent signs, not for a point. -/
theorem apart_pressOpen (h : Apart st.formula) (hlast : st.formula.getLast? ≠ some '.') :
    Apart st.pressOpen.formula := by
  let motive : Text → Prop := fun t => Apart t ∧ t.getLast? ≠ some '.'
  have hnil : motive [] := ⟨List.isChain_nil, by simp⟩
  have hclear := withoutError_induction (motive := motive) ⟨h, hlast⟩ hnil
  have hnonzero := withoutZero_induction (motive := motive) hclear hnil
  have htimes : motive ((st.withoutError []).withoutZero.formula ++ [Operator.times.glyph]) :=
    ⟨hnonzero.1.concat (by decide), by simp [Operator.glyph]⟩
  have hbefore := multiplyAfter_induction (motive := motive) hnonzero htimes
    fun c => c.isDigit || endsGroup c
  exact hbefore.1.concat_open hbefore.2

theorem apart_pressClose (h : Apart st.formula) : Apart st.pressClose.formula := by
  unfold pressClose
  split
  · exact h
  · exact h.concat (by decide)

theorem apart_pressOperator (h : Apart st.formula) (op : Operator) :
    Apart (st.pressOperator {} op).formula := by
  have hclear := withoutError_induction (motive := Apart) h (List.isChain_singleton '0')
  have hplace : Apart (operatorPlace {} (st.withoutError ['0']).formula) :=
    operatorPlace_induction hclear fun _ _ _ hu => hu.of_append
  unfold pressOperator
  dsimp only [shown, marked]
  split
  · exact hplace
  · exact hplace.concat (by cases op <;> decide)

theorem apart_pressNegate (h : Apart st.formula) : Apart st.pressNegate.formula := by
  unfold pressNegate
  split
  · exact List.isChain_singleton _
  · exact h

theorem apart_pressEqualsBare (h : Apart st.formula) : Apart st.pressEqualsBare.1.formula := by
  have hmarker : Apart errorMarker := apart_of_not_mem (by decide)
  unfold pressEqualsBare
  dsimp only
  split
  · exact h
  · split
    · exact hmarker
    · split
      · rename_i value _ hfinite
        obtain ⟨t, ht⟩ := exists_doubleText?_eq_some hfinite
        rw [ht]
        exact apart_of_not_mem (open_not_mem_of_doubleText?_eq_some ht)
      · exact hmarker

theorem apart_pressBackspaceBare (h : Apart st.formula) : Apart st.pressBackspaceBare.formula := by
  unfold pressBackspaceBare
  split
  · exact List.isChain_nil
  · dsimp only
    split
    · exact List.isChain_singleton _
    · exact h.dropLast

/-- A key puts no opening parenthesis behind a point, unless it is that of the parenthesis. -/
theorem apart_pressBare {key : Key} (h : Apart st.formula)
    (hkey : key = .open → st.formula.getLast? ≠ some '.') : Apart (st.pressBare key).1.formula := by
  cases key with
  | digit d => exact apart_pressDigitBare h d
  | point => exact apart_pressPoint h
  | «open» => exact apart_pressOpen h (hkey rfl)
  | close => exact apart_pressClose h
  | operator op => exact apart_pressOperator h op
  | negate => exact apart_pressNegate h
  | equals => exact apart_pressEqualsBare h
  | backspace => exact apart_pressBackspaceBare h
  | reset => exact List.isChain_nil
  | load number => exact h

/-- Whether no group is opened right behind a decimal separator in a run. -/
def SparesPoints (s : Separators) (st : State) (keys : List Key) : Prop :=
  ∀ moment ∈ moments s st keys, moment.2 = .open →
    moment.1.formula.getLast? ≠ some s.decimal

instance (s : Separators) (st : State) (keys : List Key) : Decidable (SparesPoints s st keys) :=
  inferInstanceAs (Decidable (∀ moment ∈ moments s st keys, moment.2 = .open →
    moment.1.formula.getLast? ≠ some s.decimal))

theorem Sound.getLast?_ne (h : Sound s st) (hlast : st.formula.getLast? ≠ some s.decimal) :
    (st.bare s).formula.getLast? ≠ some '.' := by
  intro hpoint
  have hbare : st.formula.getLast?.map s.bareChar = some '.' := by
    rw [← h.neat.grouped.getLast?_bare]
    exact hpoint
  obtain ⟨c, hc, he⟩ := Option.map_eq_some_iff.1 hbare
  have hmem : c ∈ s.ungroup st.formula :=
    Separators.mem_ungroup.2 ⟨List.mem_of_getLast? hc, h.neat.grouped.getLast?_ne hc⟩
  rw [h.neat.known.eq_decimal hmem he] at hc
  exact hlast hc

theorem Sound.apart_pressAll (h : Sound s st) (hs : s.Accepted)
    (hkeys : ∀ key ∈ keys, ∀ t, key ≠ .load t) (hspares : SparesPoints s st keys)
    (hst : Apart (st.bare s).formula) : Apart ((st.pressAll s keys).1.bare s).formula := by
  induction keys generalizing st with
  | nil => exact hst
  | cons key keys ih =>
    obtain ⟨hkey, hkeys⟩ := List.forall_mem_cons.1 hkeys
    obtain ⟨hfirst, hspares⟩ := List.forall_mem_cons.1 hspares
    refine ih (h.press hs hkey) hkeys hspares ?_
    rw [(bare_press hs h.neat hkey).1]
    exact apart_pressBare hst fun e => h.getLast?_ne (hfirst e)

/-! ### Multiplications -/

/-- In every state of a session without loading, a group stands at the start, behind an operator
or another opening parenthesis, or behind a decimal separator. -/
theorem Sound.before_open (h : Sound s st) (hs : s.Accepted)
    (e : st.formula = t ++ c :: '(' :: u) : c = '(' ∨ isInfix c ∨ c = s.decimal := by
  have hopen : isReserved '(' := Separators.isReserved_of_mem (by decide)
  have hgrouped : s.Grouped (t ++ c :: '(' :: u) := e ▸ h.neat.grouped
  have hc := hgrouped.ne_grouping_of_isNumeric (hs.isNumeric_eq_false hopen (by decide))
  obtain ⟨ending, hfirst, hsecond⟩ :=
    (h.admits_admits e hc (hs.ne_grouping hopen)).resolve_right fun hmem =>
      absurd (of_mem_errorMarker hmem.2).2 (by decide)
  rw [hs.bareChar_eq hopen] at hsecond
  rcases before_open_of_admits hfirst hsecond with hparen | hinfix | hpoint
  · exact Or.inl ((hs.bareChar_eq_iff hopen).1 hparen)
  · have hsame := hs.apply_bareChar (p := isInfix)
      (fun d hd => Separators.isReserved_of_isGlyph (Bool.and_eq_true_iff.1 hd).1) c
    exact Or.inr (Or.inl (hsame ▸ hinfix))
  · have hmem : c ∈ s.ungroup st.formula := by
      rw [e]
      exact Separators.mem_ungroup.2 ⟨by simp, hc⟩
    exact Or.inr (Or.inr (h.neat.known.eq_decimal hmem hpoint))

/-- In every state of a session without loading, no number stands right behind a group or a
percentage. -/
theorem Sound.not_number (h : Sound s st) (hs : s.Accepted)
    (e : st.formula = t ++ c :: d :: u) (hc : c = ')' ∨ c = '%') : s.isNumeric d = false := by
  have hreserved : isReserved c ∧ c.isDigit = false := by
    rcases hc with rfl | rfl
    · exact ⟨Separators.isReserved_of_mem (by decide), by decide⟩
    · exact ⟨Separators.isReserved_of_isGlyph (by decide), by decide⟩
  have hmarker : c ∉ errorMarker := by
    intro hmem
    have hother := of_mem_errorMarker hmem
    rcases hc with rfl | rfl
    · exact absurd hother.2 (by decide)
    · exact absurd hother.1 (by decide)
  have hgrouped : s.Grouped (t ++ c :: d :: u) := e ▸ h.neat.grouped
  have hd := hgrouped.ne_grouping_of_isNumeric_left
    (hs.isNumeric_eq_false hreserved.1 hreserved.2)
  obtain ⟨ending, -, hsecond⟩ :=
    (h.admits_admits e (hs.ne_grouping hreserved.1) hd).resolve_right fun hmem => hmarker hmem.1
  rw [hs.bareChar_eq hreserved.1] at hsecond
  obtain ⟨hdigit, hpoint⟩ := not_number_of_admits hc hsecond
  have hdecimal : d ≠ s.decimal := by
    rintro rfl
    exact hpoint s.bareChar_decimal
  rw [hs.apply_bareChar (p := Char.isDigit) fun _ => Separators.isReserved_of_isDigit] at hdigit
  simp [Separators.isNumeric, hdigit, hdecimal, hd]

/-- An opening parenthesis is put right behind a decimal separator, without a multiplication. -/
theorem Sound.pressOpen_decimal (h : Sound s st) (hs : s.Accepted)
    (hlast : st.formula.getLast? = some s.decimal) :
    st.pressOpen.formula = st.formula ++ ['('] := by
  have hne : ∀ c, st.formula.getLast? = some c → isReserved c = false := by
    intro c hc
    rw [hlast, Option.some.injEq] at hc
    by_contra hreserved
    exact hs.ne_decimal (by simpa using hreserved) hc.symm
  have herror : st.isError = false := by
    by_contra hmark
    have hformula := h.consistent.formula_of_error (by simpa [isError] using hmark)
    rw [hformula] at hne
    exact absurd (hne 'r' rfl) (by decide)
  have hzero : st.formula ≠ ['0'] := by
    intro hformula
    rw [hformula] at hne
    exact absurd (hne '0' rfl) (by decide)
  have hends : (s.decimal.isDigit || endsGroup s.decimal) = false := by
    by_contra hends
    rw [Bool.not_eq_false, Bool.or_eq_true] at hends
    have hreserved : isReserved s.decimal :=
      hends.elim Separators.isReserved_of_isDigit isReserved_of_endsGroup
    rw [hne s.decimal hlast] at hreserved
    cases hreserved
  simp [pressOpen, withoutError, herror, withoutZero, hzero, multiplyAfter, hlast, hends, append,
    marked, shown]

/-- In a session without loading, no number stands right behind a group or a percentage, and a group
stands only at the start, behind an operator that takes an operand or another opening parenthesis,
or behind a decimal separator. There the key that opens it was pressed right behind the separator:
it inserts a multiplication behind a digit, but none behind the separator that ends a number. -/
theorem multiplied_pressAll (hs : s.check = .ok ()) (hkeys : ∀ key ∈ keys, ∀ t, key ≠ .load t) :
    let st := (initial.pressAll s keys).1
    (∀ before c d after, st.formula = before ++ c :: d :: after → c = ')' ∨ c = '%' →
      s.isNumeric d = false) ∧
    (∀ before c after, st.formula = before ++ c :: '(' :: after →
      c = '(' ∨ isInfix c ∨ c = s.decimal) ∧
    (SparesPoints s initial keys → ∀ before c after, st.formula = before ++ c :: '(' :: after →
      c = '(' ∨ isInfix c) ∧
    (st.formula.getLast? = some s.decimal →
      (st.press s .open).1.formula = st.formula ++ ['(']) := by
  have hs := Separators.check_eq_ok_iff.1 hs
  intro st
  have hsound : Sound s st := (sound_initial hs).pressAll hs hkeys
  refine ⟨?_, ?_, ?_, ?_⟩
  · intro before c d after e hc
    exact hsound.not_number hs e hc
  · intro before c after e
    exact hsound.before_open hs e
  · intro hspares before c after e
    have hzero : Apart (initial.bare s).formula := by
      rw [bare_initial hs]
      exact List.isChain_singleton _
    have hapart : Apart (st.bare s).formula :=
      (sound_initial hs).apart_pressAll hs hkeys hspares hzero
    rcases hsound.before_open hs e with hparen | hinfix | rfl
    · exact Or.inl hparen
    · exact Or.inr hinfix
    · have hne : s.decimal ≠ s.grouping := hs.1
      have hopen : '(' ≠ s.grouping := hs.ne_grouping (Separators.isReserved_of_mem (by decide))
      have hbare : (st.bare s).formula = s.bare before ++ '.' :: '(' :: s.bare after := by
        have hparen : s.bareChar '(' = '(' :=
          hs.bareChar_eq (Separators.isReserved_of_mem (by decide))
        rw [State.bare, e, Separators.bare_append, Separators.bare_cons hne,
          Separators.bare_cons hopen, s.bareChar_decimal, hparen]
      rw [hbare] at hapart
      exact absurd rfl hapart.before_open
  · exact hsound.pressOpen_decimal hs

/-- Products of groups, numbers and a percentage, and the group behind a separator that is not
multiplied. -/
theorem multiplied_pressAll_group :
    let s : Separators := ⟨'.', ','⟩
    let product : List Key := [.digit 2, .open, .digit 3, .close, .digit 4, .operator .percent,
      .digit 5]
    let pointed : List Key := [.digit 2, .point]
    let st := (initial.pressAll s pointed).1
    (initial.pressAll s product).1.formula = "2×(3)×4%×5".toList ∧
      (∀ before c after, (initial.pressAll s product).1.formula = before ++ c :: '(' :: after →
        c = '(' ∨ isInfix c) ∧
      (st.press s .open).1.formula = st.formula ++ ['('] ∧ st.formula = "2.".toList := by
  intro s product pointed st
  have hs : s.check = .ok () := by decide +kernel
  have hspares : SparesPoints s initial product := by decide +kernel
  have hproduct : ∀ key ∈ product, ∀ t, key ≠ .load t := by simp [product]
  have hpointed : ∀ key ∈ pointed, ∀ t, key ≠ .load t := by simp [pointed]
  obtain ⟨-, -, hmultiplied, -⟩ := multiplied_pressAll hs hproduct
  obtain ⟨-, -, -, hopen⟩ := multiplied_pressAll hs hpointed
  exact ⟨by decide +kernel, hmultiplied hspares, hopen (by decide +kernel), by decide +kernel⟩

end State

end PocketCalculator
