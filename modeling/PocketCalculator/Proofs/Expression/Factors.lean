import PocketCalculator.Proofs.Expression.Reading

/-!
# Reading factors

Over a reader of the factors inside, every reader of a part of a factor answers exactly the trees
that the grammar has in its place, with one lemma for each direction. `factor_reads` ties them by
induction on the levels that are left.
-/

namespace PocketCalculator

namespace Expression

variable {α : Type}

/-! ### Terms and sums -/

theorem additive?_isSome_iff {c : Char} : (additive? c).isSome ↔ c = '+' ∨ c = '-' := by
  unfold additive?
  split <;> simp_all

theorem multiplicative?_isSome_iff {c : Char} : (multiplicative? c).isSome ↔ c = '*' ∨ c = '/' := by
  unfold multiplicative?
  split <;> simp_all

theorem multiplicative?_starts (c : Char) (h : (multiplicative? c).isSome) :
    isBlank c = false ∧ ¬ False := by
  rcases multiplicative?_isSome_iff.1 h with rfl | rfl <;> decide

theorem additive?_starts (c : Char) (h : (additive? c).isSome) :
    isBlank c = false ∧ ¬ (c = '*' ∨ c = '/') := by
  rcases additive?_isSome_iff.1 h with rfl | rfl <;> decide

section Factors

variable {factor : Reader} {P : Phrase α}

theorem term_reads (hr : Reads factor P fun _ => False) :
    Reads (term factor) P.term fun c => c = '*' ∨ c = '/' := by
  have h := operands_reads hr multiplicative?_starts
  simp only [false_or, multiplicative?_isSome_iff] at h
  exact h

theorem sum_reads (hr : Reads factor P fun _ => False) :
    Reads (sum factor) P.sum fun c => (c = '*' ∨ c = '/') ∨ c = '+' ∨ c = '-' := by
  have h := operands_reads (term_reads hr) additive?_starts
  simp only [additive?_isSome_iff] at h
  exact h

/-- A sum ends before a closing parenthesis. -/
theorem ends_close (close : Gap) (rest : Text) :
    Ends (fun c => (c = '*' ∨ c = '/') ∨ c = '+' ∨ c = '-') (close ++ ')' :: rest) := by
  intro c hc
  rw [next?_gap_cons close (by decide)] at hc
  cases hc
  decide

/-! ### Atoms -/

theorem literal_sound {cur behind : Cursor} {value : Float}
    (h : literal cur = .ok (value, behind)) :
    ∃ l : Literal, cur.rest = l.run ++ behind.rest ∧ StopsAt isLiteralChar behind.rest ∧
      l.decimal.toFloat? = some value := by
  unfold literal at h
  split at h
  · cases h
  · rename_i x hx
    obtain ⟨l, hrun, rfl⟩ := exists_literal hx
    cases hv : l.decimal.toFloat? with
    | none =>
      rw [hv] at h
      cases h
    | some v =>
      rw [hv, Option.elim_some] at h
      cases h
      refine ⟨l, ?_, stopsAt_dropWhile cur.rest, hv⟩
      rw [hrun]
      exact List.takeWhile_append_dropWhile.symm

theorem literal_complete {l : Literal} {cur : Cursor} {rest : Text} {value : Float}
    (h : cur.rest = l.run ++ rest) (hrest : StopsAt isLiteralChar rest)
    (hv : l.decimal.toFloat? = some value) :
    literal cur = .ok (value, cur.skipWhile isLiteralChar) ∧
      At rest (cur.skipWhile isLiteralChar) := by
  constructor
  · unfold literal
    rw [h, takeWhile_run l.isLiteralChar_of_mem hrest, l.ofLiteral?_run]
    exact congrArg (fun v? => Option.elim v? _ _) hv
  · have hdrop := dropWhile_run l.isLiteralChar_of_mem hrest
    rw [← h] at hdrop
    exact congrArg (List.dropWhile isBlank) hdrop.symm

theorem group_sound (hr : Reads factor P fun _ => False) {cur behind : Cursor} {value : Float}
    (h : group factor cur = .ok (value, behind)) :
    ∃ inner, ∃ close : Gap, cur.rest = P.sum.text inner ++ (close ++ ')' :: behind.rest) ∧
      P.sum.Settled inner (close ++ ')' :: behind.rest) ∧ P.sum.value? inner = some value := by
  unfold group at h
  split at h
  · cases h
  · rename_i v mid hsum
    obtain ⟨inner, rest, hcur, hmid, hs, hv⟩ := (sum_reads hr).sound (at_rest cur) hsum
    obtain ⟨close, hclose⟩ := hmid.exists_gap
    dsimp only at h
    split at h
    · rename_i after hafter
      obtain ⟨rfl, rfl⟩ : v = value ∧ mid.skipBlank.after [')'] after = behind := by simpa using h
      rw [hafter] at hclose
      exact ⟨inner, close, by rw [hcur, hclose]; rfl, hclose ▸ hs, hv⟩
    · cases h

theorem group_complete (hr : Reads factor P fun _ => False) {cur : Cursor} {value : Float}
    {inner : Operands (Operands α)} {close : Gap} {rest : Text}
    (h : cur.rest = P.sum.text inner ++ (close ++ ')' :: rest))
    (hs : P.sum.Settled inner (close ++ ')' :: rest)) (hv : P.sum.value? inner = some value) :
    ∃ behind, group factor cur = .ok (value, behind) ∧ At rest behind := by
  have hstop := ends_close close rest
  obtain ⟨mid, hsum, hmid⟩ := (sum_reads hr).complete (congrArg (List.dropWhile isBlank) h.symm)
    hs hv hstop
  refine ⟨mid.skipBlank.after [')'] rest, ?_, rfl⟩
  unfold group
  rw [hsum]
  dsimp only
  rw [hmid.skipBlank_rest_eq (by decide)]
  rfl

theorem application_sound (hr : Reads factor P fun _ => False) {cur behind : Cursor}
    {value : Float} (h : application factor cur = .ok (value, behind)) :
    ∃ x rest, cur.rest = "sqrt".toList ++ (P.text x ++ rest) ∧ At rest behind ∧
      StopsAt Char.isLower (P.text x ++ rest) ∧ P.Settled x rest ∧
        (P.value? x).map Float.sqrt = some value := by
  unfold application at h
  dsimp only at h
  split at h
  · rename_i hname
    split at h
    · cases h
    · rename_i v mid hread
      obtain ⟨rfl, rfl⟩ : v.sqrt = value ∧ mid = behind := by simpa using h
      obtain ⟨x, rest, hx, hbehind, hs, hv⟩ := hr.sound (at_rest _) hread
      have hx : cur.rest.dropWhile Char.isLower = P.text x ++ rest := hx
      refine ⟨x, rest, ?_, hbehind, hx ▸ stopsAt_dropWhile cur.rest, hs, by rw [hv]; rfl⟩
      rw [← hname, ← hx]
      exact List.takeWhile_append_dropWhile.symm
  · cases h

theorem application_complete (hr : Reads factor P fun _ => False) {cur : Cursor} {value : Float}
    {x : α} {rest : Text} (h : cur.rest = "sqrt".toList ++ (P.text x ++ rest))
    (hstop : StopsAt Char.isLower (P.text x ++ rest)) (hs : P.Settled x rest)
    (hv : (P.value? x).map Float.sqrt = some value) :
    ∃ behind, application factor cur = .ok (value, behind) ∧ At rest behind := by
  obtain ⟨v, hvalue, rfl⟩ := Option.map_eq_some_iff.1 hv
  have hlower : ∀ c ∈ "sqrt".toList, c.isLower := List.all_eq_true.1 (by decide)
  have hname : cur.rest.takeWhile Char.isLower = "sqrt".toList := by
    rw [h, takeWhile_run hlower hstop]
  have hat : At (P.text x ++ rest) (cur.skipWhile Char.isLower) := by
    have hdrop : cur.rest.dropWhile Char.isLower = P.text x ++ rest := by
      rw [h, dropWhile_run hlower hstop]
    exact congrArg (List.dropWhile isBlank) hdrop.symm
  obtain ⟨behind, hread, hbehind⟩ := hr.complete hat hs hvalue (ends_false _)
  refine ⟨behind, ?_, hbehind⟩
  unfold application
  dsimp only
  rw [if_pos hname, hread]

theorem isBlank_eq_false_of_isLiteralChar {c : Char} (h : isLiteralChar c) :
    isBlank c = false := by
  simp only [isLiteralChar, Bool.or_eq_true, Char.isDigit_iff_toNat, beq_iff_eq] at h
  rcases h with ⟨h₁, h₂⟩ | rfl
  · have hlow : 48 ≤ c.toNat := h₁
    have hhigh : c.toNat ≤ 57 := h₂
    simp only [isBlank, CharRanges.holds, blankRanges, List.any_cons, List.any_nil, Bool.or_false,
      Bool.or_eq_false_iff, Bool.and_eq_false_iff, decide_eq_false_iff_not]
    omega
  · decide

/-- Whether an atom can start with a character, which tells the kinds of atoms apart. -/
def Atom.Starts : Atom α → Char → Prop
  | .group _ _, c => c = '('
  | .literal _, c => isLiteralChar c
  | .root _, c => c = 's'

theorem exists_starts (P : Phrase α) (x : Atom α) :
    ∃ c t, P.atom.text x = c :: t ∧ x.Starts c := by
  cases x with
  | group inner close => exact ⟨'(', _, rfl, rfl⟩
  | literal l =>
    obtain ⟨d, hd, -⟩ := l.exists_isDigit
    obtain ⟨c, t, hl⟩ := List.exists_cons_of_ne_nil (List.ne_nil_of_mem hd)
    exact ⟨c, t, hl, l.isLiteralChar_of_mem c (by rw [hl]; simp)⟩
  | root x => exact ⟨'s', _, rfl, rfl⟩

/-- An atom starts with a token, and not with a sign. -/
theorem Atom.Starts.isBlank_eq_false {x : Atom α} {c : Char} (h : x.Starts c) :
    isBlank c = false ∧ c ≠ '+' ∧ c ≠ '-' := by
  cases x with
  | group inner close =>
    obtain rfl : c = '(' := h
    decide
  | literal l =>
    have h : isLiteralChar c := h
    refine ⟨isBlank_eq_false_of_isLiteralChar h, ?_, ?_⟩
    · rintro rfl
      exact absurd h (by decide)
    · rintro rfl
      exact absurd h (by decide)
  | root x =>
    obtain rfl : c = 's' := h
    decide

theorem atom_sound (hr : Reads factor P fun _ => False) {cur behind : Cursor} {value : Float}
    (h : atom factor cur = .ok (value, behind)) :
    ∃ x rest, cur.rest = P.atom.text x ++ rest ∧ At rest behind ∧ P.atom.Settled x rest ∧
      P.atom.value? x = some value := by
  unfold atom at h
  split at h
  · cases h
  · rename_i c after hcur
    split at h
    · rename_i hc
      subst hc
      obtain ⟨inner, close, hafter, hs, hv⟩ := group_sound hr h
      refine ⟨.group inner close, behind.rest, ?_, rfl, hs, hv⟩
      have hafter : after = _ := hafter
      rw [hcur, hafter]
      simp [Phrase.atom]
    · split at h
      · obtain ⟨l, hl, hstop, hv⟩ := literal_sound h
        exact ⟨.literal l, behind.rest, hl, rfl, hstop, hv⟩
      · split at h
        · obtain ⟨x, rest, hx, hbehind, hstop, hs, hv⟩ := application_sound hr h
          refine ⟨.root x, rest, ?_, hbehind, ⟨hs, hstop⟩, hv⟩
          rw [hx]
          exact (List.append_assoc ..).symm
        · cases h

theorem atom_complete (hr : Reads factor P fun _ => False) {cur : Cursor} {value : Float}
    {x : Atom α} {rest : Text} (h : cur.rest = P.atom.text x ++ rest)
    (hs : P.atom.Settled x rest) (hv : P.atom.value? x = some value) :
    ∃ behind, atom factor cur = .ok (value, behind) ∧ At rest behind := by
  unfold atom
  cases x with
  | group inner close =>
    have h : cur.rest = '(' :: (P.sum.text inner ++ (close ++ ')' :: rest)) := by
      rw [h]
      simp [Phrase.atom]
    have hinside : (cur.after ['('] (P.sum.text inner ++ (close ++ ')' :: rest))).rest =
        P.sum.text inner ++ (close ++ ')' :: rest) := rfl
    obtain ⟨behind, hread, hbehind⟩ := group_complete hr hinside hs hv
    exact ⟨behind, by rw [h]; exact hread, hbehind⟩
  | literal l =>
    obtain ⟨c, t, hl, hc⟩ := exists_starts P (.literal l)
    have hc : isLiteralChar c := hc
    have hne : c ≠ '(' := by
      rintro rfl
      exact absurd hc (by decide)
    have hcur : cur.rest = c :: (t ++ rest) := by rw [h, hl, List.cons_append]
    obtain ⟨hread, hbehind⟩ := literal_complete h hs hv
    refine ⟨_, ?_, hbehind⟩
    rw [hcur]
    dsimp only
    rw [if_neg hne, if_pos hc]
    exact hread
  | root x =>
    have h : cur.rest = "sqrt".toList ++ (P.text x ++ rest) := by
      rw [h]
      exact List.append_assoc ..
    obtain ⟨behind, hread, hbehind⟩ := application_complete hr h hs.2 hs.1 hv
    refine ⟨behind, ?_, hbehind⟩
    rw [h]
    exact hread

/-! ### Exponents and percent signs -/

/-- What is read behind a sign or a `^`. -/
theorem Reads.sound_after (hr : Reads factor P fun _ => False) {gap : Gap} {c : Char}
    {t after : Text} {cur behind : Cursor} {value : Float} (ht : t = gap ++ c :: after)
    (hread : factor (cur.after [c] after) = .ok (value, behind)) :
    ∃ x rest, t = gap ++ c :: (P.text x ++ rest) ∧ At rest behind ∧ P.Settled x rest ∧
      P.value? x = some value := by
  obtain ⟨x, rest, hx, hbehind, hs, hv⟩ := hr.sound (at_rest _) hread
  have hx : after = P.text x ++ rest := hx
  exact ⟨x, rest, by rw [ht, hx], hbehind, hs, hv⟩

theorem Reads.complete_after (hr : Reads factor P fun _ => False) {gap : Gap} {c : Char}
    (hc : isBlank c = false) {x : α} {rest : Text} {cur : Cursor} {value : Float}
    (h : At (gap ++ c :: (P.text x ++ rest)) cur) (hs : P.Settled x rest)
    (hv : P.value? x = some value) :
    cur.skipBlank.rest = c :: (P.text x ++ rest) ∧ ∃ behind,
      factor (cur.skipBlank.after [c] (P.text x ++ rest)) = .ok (value, behind) ∧
        At rest behind :=
  ⟨h.skipBlank_rest_eq hc, hr.complete (at_rest (cur.skipBlank.after [c] _)) hs hv (ends_false _)⟩

theorem exponentText_some_append (P : Phrase α) (gap : Gap) (x : α) (rest : Text) :
    P.exponentText (some (gap, x)) ++ rest = gap ++ '^' :: (P.text x ++ rest) := by
  simp [Phrase.exponentText]

theorem percentText_some_append (gap : Gap) (rest : Text) :
    Phrase.percentText (some gap) ++ rest = gap ++ '%' :: rest := by
  simp [Phrase.percentText]

theorem power_sound (hr : Reads factor P fun _ => False) {value value' : Float} {t : Text}
    {cur behind : Cursor} (h : At t cur) (hp : power factor value cur = .ok (value', behind)) :
    ∃ exponent? rest, t = P.exponentText exponent? ++ rest ∧ At rest behind ∧
      P.ExponentSettled exponent? rest ∧ P.raised? value exponent? = some value' := by
  obtain ⟨gap, ht⟩ := h.exists_gap
  have hnext := h.next?_eq
  unfold power at hp
  dsimp only at hp
  split at hp
  · rename_i after hafter
    split at hp
    · cases hp
    · rename_i exponent mid hread
      cases hp
      rw [hafter] at ht
      obtain ⟨x, rest, hx, hbehind, hs, hv⟩ := hr.sound_after ht hread
      refine ⟨some (gap, x), rest, ?_, hbehind, hs, by simp [Phrase.raised?, hv]⟩
      rw [hx, exponentText_some_append]
  · rename_i hne
    cases hp
    refine ⟨none, t, rfl, h.skipBlank, ?_, rfl⟩
    intro he
    rw [hnext] at he
    obtain ⟨u, hu⟩ := List.head?_eq_some_iff.1 he
    exact hne u hu

theorem power_complete (hr : Reads factor P fun _ => False) {value value' : Float}
    {exponent? : Option (Gap × α)} {rest : Text} {cur : Cursor}
    (h : At (P.exponentText exponent? ++ rest) cur) (hs : P.ExponentSettled exponent? rest)
    (hv : P.raised? value exponent? = some value') :
    ∃ behind, power factor value cur = .ok (value', behind) ∧ At rest behind := by
  unfold power
  dsimp only
  rcases exponent? with _ | ⟨gap, x⟩
  · cases hv
    refine ⟨cur.skipBlank, ?_, At.skipBlank h⟩
    split
    · rename_i after hafter
      have hnext := At.next?_eq h
      rw [hafter] at hnext
      exact absurd hnext hs
    · rfl
  · obtain ⟨exponent, hvalue, rfl⟩ := Option.map_eq_some_iff.1 hv
    rw [exponentText_some_append] at h
    obtain ⟨hcur, behind, hread, hbehind⟩ := hr.complete_after (by decide) h hs hvalue
    refine ⟨behind, ?_, hbehind⟩
    simp only [hcur, hread]

theorem percent_sound {value value' : Float} {t : Text} {cur behind : Cursor} (h : At t cur)
    (hp : percent value cur = (value', behind)) :
    ∃ percent? rest, t = Phrase.percentText percent? ++ rest ∧ At rest behind ∧
      Phrase.PercentSettled percent? rest ∧ Phrase.hundredth value percent? = value' := by
  obtain ⟨gap, ht⟩ := h.exists_gap
  have hnext := h.next?_eq
  unfold percent at hp
  dsimp only at hp
  split at hp
  · rename_i after hafter
    cases hp
    refine ⟨some gap, after, ?_, rfl, trivial, rfl⟩
    rw [ht, hafter, percentText_some_append]
  · rename_i hne
    cases hp
    refine ⟨none, t, rfl, h.skipBlank, ?_, rfl⟩
    intro he
    rw [hnext] at he
    obtain ⟨u, hu⟩ := List.head?_eq_some_iff.1 he
    exact hne u hu

theorem percent_complete (value : Float) {percent? : Option Gap} {rest : Text} {cur : Cursor}
    (h : At (Phrase.percentText percent? ++ rest) cur) (hs : Phrase.PercentSettled percent? rest) :
    ∃ behind, percent value cur = (Phrase.hundredth value percent?, behind) ∧ At rest behind := by
  unfold percent
  dsimp only
  cases percent? with
  | none =>
    refine ⟨cur.skipBlank, ?_, At.skipBlank h⟩
    split
    · rename_i after hafter
      have hnext := At.next?_eq h
      rw [hafter] at hnext
      exact absurd hnext hs
    · rfl
  | some gap =>
    rw [percentText_some_append] at h
    refine ⟨cur.skipBlank.after ['%'] rest, ?_, rfl⟩
    rw [h.skipBlank_rest_eq (by decide)]
    rfl

/-! ### Factors -/

theorem plain_sound (hr : Reads factor P fun _ => False) {cur mid₁ mid₂ behind : Cursor}
    {v₁ v₂ value : Float} (hatom : atom factor cur = .ok (v₁, mid₁))
    (hpower : power factor v₁ mid₁ = .ok (v₂, mid₂)) (hpercent : percent v₂ mid₂ = (value, behind))
    (gap : Gap) :
    ∃ base exponent? percent? rest,
      gap ++ cur.rest = P.level.text (.plain gap base exponent? percent?) ++ rest ∧
      At rest behind ∧ P.level.Settled (.plain gap base exponent? percent?) rest ∧
        P.level.value? (.plain gap base exponent? percent?) = some value := by
  obtain ⟨base, rest₁, hbase, hmid₁, hs₁, hv₁⟩ := atom_sound hr hatom
  obtain ⟨exponent?, rest₂, rfl, hmid₂, hs₂, hv₂⟩ := power_sound hr hmid₁ hpower
  obtain ⟨percent?, rest, rfl, hbehind, hs₃, hv₃⟩ := percent_sound hmid₂ hpercent
  refine ⟨base, exponent?, percent?, rest, ?_, hbehind, ⟨hs₁, hs₂, hs₃⟩, ?_⟩
  · simp [Phrase.level, hbase]
  · simp [Phrase.level, hv₁, hv₂, hv₃]

/-- The first character tells a factor without a sign from one with a sign. -/
theorem level_eq_of_starts {x : Atom α} {c : Char} (hc : x.Starts c) {cur : Cursor} {t : Text}
    (hcur : cur.skipBlank.rest = c :: t) {v₁ v₂ : Float} {mid₁ mid₂ : Cursor}
    (hatom : atom factor cur.skipBlank = .ok (v₁, mid₁))
    (hpower : power factor v₁ mid₁ = .ok (v₂, mid₂)) :
    level factor cur = .ok (percent v₂ mid₂) := by
  obtain ⟨-, hplus, hminus⟩ := hc.isBlank_eq_false
  unfold level
  dsimp only
  split
  · rename_i after hafter
    rw [hcur] at hafter
    exact absurd (List.cons.inj hafter).1 hplus
  · rename_i after hafter
    rw [hcur] at hafter
    exact absurd (List.cons.inj hafter).1 hminus
  · rw [hatom]
    dsimp only
    rw [hpower]

theorem plain_complete (hr : Reads factor P fun _ => False) {gap : Gap} {base : Atom α}
    {exponent? : Option (Gap × α)} {percent? : Option Gap} {rest : Text} {cur : Cursor}
    {value : Float} (h : At (P.level.text (.plain gap base exponent? percent?) ++ rest) cur)
    (hs : P.level.Settled (.plain gap base exponent? percent?) rest)
    (hv : P.level.value? (.plain gap base exponent? percent?) = some value) :
    ∃ behind, level factor cur = .ok (value, behind) ∧ At rest behind := by
  obtain ⟨hs₁, hs₂, hs₃⟩ := hs
  obtain ⟨v₂, hv', rfl⟩ := Option.map_eq_some_iff.1 hv
  obtain ⟨v₁, hv₁, hv₂⟩ := Option.bind_eq_some_iff.1 hv'
  obtain ⟨c, u, hc, hstarts⟩ := exists_starts P base
  have h : At (gap ++ (P.atom.text base ++ (P.exponentText exponent? ++
      (Phrase.percentText percent? ++ rest)))) cur := by
    simpa [Phrase.level] using h
  have hcur : cur.skipBlank.rest = P.atom.text base ++ (P.exponentText exponent? ++
      (Phrase.percentText percent? ++ rest)) := by
    rw [hc, List.cons_append] at h ⊢
    exact h.skipBlank_rest_eq hstarts.isBlank_eq_false.1
  obtain ⟨mid₁, hatom, hmid₁⟩ := atom_complete hr hcur hs₁ hv₁
  obtain ⟨mid₂, hpower, hmid₂⟩ := power_complete hr hmid₁ hs₂ hv₂
  obtain ⟨behind, hpercent, hbehind⟩ := percent_complete v₂ hmid₂ hs₃
  refine ⟨behind, ?_, hbehind⟩
  rw [hc, List.cons_append] at hcur
  rw [level_eq_of_starts hstarts hcur hatom hpower, hpercent]

/-- One level of factors, over a reader of the factors inside. -/
theorem level_reads (hr : Reads factor P fun _ => False) :
    Reads (level factor) P.level fun _ => False where
  sound {t cur value behind} h hread := by
    obtain ⟨gap, ht⟩ := h.exists_gap
    unfold level at hread
    dsimp only at hread
    split at hread
    · rename_i after hafter
      rw [hafter] at ht
      obtain ⟨x, rest, hx, hbehind, hs, hv⟩ := hr.sound_after ht hread
      exact ⟨.positive gap x, rest, by simp [Phrase.level, hx], hbehind, hs, hv⟩
    · rename_i after hafter
      split at hread
      · cases hread
      · rename_i v mid hinner
        cases hread
        rw [hafter] at ht
        obtain ⟨x, rest, hx, hbehind, hs, hv⟩ := hr.sound_after ht hinner
        refine ⟨.negative gap x, rest, ?_, hbehind, hs, by simp [Phrase.level, hv]⟩
        simp [Phrase.level, hx]
    · split at hread
      · cases hread
      · rename_i v₁ mid₁ hatom
        split at hread
        · cases hread
        · rename_i v₂ mid₂ hpower
          obtain ⟨base, exponent?, percent?, rest, hplain, hbehind, hs, hv⟩ :=
            plain_sound hr hatom hpower (Except.ok.inj hread) gap
          exact ⟨.plain gap base exponent? percent?, rest, ht.trans hplain, hbehind, hs, hv⟩
  complete {x rest cur value} h hs hv _ := by
    cases x with
    | positive gap x =>
      have h : At (gap ++ '+' :: (P.text x ++ rest)) cur := by simpa [Phrase.level] using h
      obtain ⟨hcur, behind, hread, hbehind⟩ := hr.complete_after (by decide) h hs hv
      refine ⟨behind, ?_, hbehind⟩
      unfold level
      simp only [hcur, hread]
    | negative gap x =>
      obtain ⟨v, hvalue, rfl⟩ := Option.map_eq_some_iff.1 hv
      have h : At (gap ++ '-' :: (P.text x ++ rest)) cur := by simpa [Phrase.level] using h
      obtain ⟨hcur, behind, hread, hbehind⟩ := hr.complete_after (by decide) h hs hvalue
      refine ⟨behind, ?_, hbehind⟩
      unfold level
      simp only [hcur, hread]
    | plain gap base exponent? percent? => exact plain_complete hr h hs hv

end Factors

/-- Factors with `n` levels left are those nested at most `n` deep. -/
theorem factor_reads (limit n : Nat) :
    Reads (factor limit n) (Phrase.factor n) fun _ => False := by
  induction n with
  | zero =>
    constructor
    · intro t cur value behind _ h
      cases h
    · intro x
      exact Empty.elim x
  | succ n ih => exact level_reads ih

end Expression

end PocketCalculator
