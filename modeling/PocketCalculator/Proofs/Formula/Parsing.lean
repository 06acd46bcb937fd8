import PocketCalculator.Proofs.Formula.Pending

/-!
# Reading typed texts

A reader that stands in a typed text where an operand is missing either reads an operand of it and
stops at a place from which the text is complete or not as it was, or it fails at a limit, or the
text is not complete (`Outcome`). There is one lemma for each reader; `factor_passes` ties them by
induction on the levels that are left.
-/

namespace PocketCalculator

/-- The errors that a complete expression can have. -/
def EvalError.IsLimit (limit : Nat) (err : EvalError) : Prop :=
  err = .overflow ∨ ∃ position, err = .nestedTooDeep position limit

namespace Expression

open Ending

variable {e : Ending} {c : Char} {count limit : Nat} {t u : Text} {cur : Cursor}
  {goesOn : Char → Bool} {r : Reader}

/-- How reading from a typed text can come out, if the reader goes on over the characters of a
class. -/
inductive Outcome (limit : Nat) (goesOn : Char → Bool) (e : Ending) (count : Nat) (t : Text) :
    Except EvalError (Float × Cursor) → Prop
  | value {v : Float} {behind : Cursor} {e' : Ending} {u : Text}
      (rest_eq : behind.rest = expressionOf u) (length_le : u.length ≤ t.length)
      (operand : e'.awaits = false) (pending : Pending e' count u)
      (completes_iff : Completes e t ↔ Completes e' u) (stops : StopsAt goesOn u) :
      Outcome limit goesOn e count t (.ok (v, behind))
  | limit {err : EvalError} (h : err.IsLimit limit) : Outcome limit goesOn e count t (.error err)
  | flaw {err : EvalError} (h : ¬ Completes e t) : Outcome limit goesOn e count t (.error err)

/-- Reading goes on behind a part of the text. -/
theorem Outcome.of_rest {e' : Ending} {result : Except EvalError (Float × Cursor)}
    (h : Outcome limit goesOn e' count u result) (hlength : u.length ≤ t.length)
    (hcompletes : Completes e t ↔ Completes e' u) : Outcome limit goesOn e count t result := by
  cases h with
  | value rest_eq length_le operand pending completes_iff stops =>
    exact .value rest_eq (length_le.trans hlength) operand pending
      (hcompletes.trans completes_iff) stops
  | limit h => exact .limit h
  | flaw h => exact .flaw fun hc => h (hcompletes.1 hc)

/-- A reader reads an operand of every typed text, as far as the text is complete. -/
def Passes (limit : Nat) (goesOn : Char → Bool) (r : Reader) : Prop :=
  ∀ {e : Ending} {count : Nat} {t : Text} {cur : Cursor}, e.awaits → Pending e count t →
    cur.rest = expressionOf t → Outcome limit goesOn e count t (r cur)

theorem Passes.after (hr : Passes limit goesOn r) (he : e.awaits) (ht : Pending e count t)
    (cur : Cursor) (piece : Text) :
    Outcome limit goesOn e count t (r (cur.after piece (expressionOf t))) :=
  hr he ht rfl

/-! ### Operands with operators between them -/

/-- What goes on behind operands with operators of one rank. -/
def operandsGoOn (operator? : Char → Option (Float → Float → Float)) (goesOn : Char → Bool)
    (c : Char) : Bool :=
  goesOn c || (operator? (Separators.plainChar {} c)).isSome

section Operands

variable {operator? : Char → Option (Float → Float → Float)}

theorem chain_outcome (hr : Passes limit goesOn r)
    (hop : ∀ (e : Ending) (c : Char), e.admits c →
      (operator? (Separators.plainChar {} c)).isSome → isInfix c)
    (n : Nat) (hn : t.length ≤ n) (v : Float) (he : e.awaits = false) (ht : Pending e count t)
    (hstop : StopsAt goesOn t) (hcur : cur.rest = expressionOf t) :
    Outcome limit (operandsGoOn operator? goesOn) e count t (chain operator? r n v cur) := by
  induction n generalizing e t cur v with
  | zero =>
    obtain rfl : t = [] := List.length_eq_zero_iff.1 (Nat.le_zero.1 hn)
    exact .value hcur le_rfl he ht Iff.rfl stopsAt_nil
  | succ n ih =>
    unfold chain
    rw [ht.skipBlank_eq hcur]
    dsimp only
    cases t with
    | nil =>
      rw [hcur]
      exact .value hcur le_rfl he ht Iff.rfl stopsAt_nil
    | cons c t =>
      rw [hcur]
      dsimp only [expressionOf_cons]
      cases hc : operator? (Separators.plainChar {} c) with
      | none =>
        refine .value hcur le_rfl he ht Iff.rfl (stopsAt_cons.2 ?_)
        rw [operandsGoOn, stopsAt_cons.1 hstop, hc]
        rfl
      | some combine =>
        have hoperator : isInfix c := hop e c ht.admits (by rw [hc]; rfl)
        have htail := ht.tail_of_isInfix hoperator
        have hread := hr.after rfl htail cur [Separators.plainChar {} c]
        have hcompletes := completes_cons_of_isInfix (e := e) (t := t) hoperator
        dsimp only
        generalize r _ = result at hread ⊢
        cases hread with
        | value rest_eq length_le operand pending completes_iff stops =>
          rw [List.length_cons] at hn
          exact (ih (by omega) _ operand pending stops rest_eq).of_rest
            (length_le.trans (Nat.le_succ _)) (hcompletes.trans completes_iff)
        | limit h => exact .limit h
        | flaw h => exact .flaw fun hc => h (hcompletes.1 hc)

theorem operands_passes (hr : Passes limit goesOn r)
    (hop : ∀ (e : Ending) (c : Char), e.admits c →
      (operator? (Separators.plainChar {} c)).isSome → isInfix c) :
    Passes limit (operandsGoOn operator? goesOn) (operands operator? r) := by
  intro e count t cur he ht hcur
  have hread := hr he ht hcur
  unfold operands
  generalize r cur = result at hread ⊢
  cases hread with
  | value rest_eq length_le operand pending completes_iff stops =>
    dsimp only
    have hlength : _ ≤ _ := (congrArg List.length rest_eq).trans (List.length_map _) |>.ge
    exact (chain_outcome hr hop _ hlength _ operand pending stops rest_eq).of_rest length_le
      completes_iff
  | limit h => exact .limit h
  | flaw h => exact .flaw h

end Operands

/-! ### The parts of a factor -/

theorem literal_outcome (he : e.awaits) (ht : Pending e count (c :: t)) (hc : c.isDigit)
    (hcur : cur.rest = expressionOf (c :: t)) :
    Outcome limit isLiteralChar e count (c :: t) (literal cur) := by
  have hliteral : isLiteralChar c := by simp [isLiteralChar, hc]
  obtain ⟨htake, hdrop⟩ := takeWhile_expressionOf ht.typed
  have hsplit : (c :: t).takeWhile isLiteralChar ++ (c :: t).dropWhile isLiteralChar = c :: t :=
    List.takeWhile_append_dropWhile
  have hstop : StopsAt isLiteralChar ((c :: t).dropWhile isLiteralChar) := stopsAt_dropWhile _
  rw [List.takeWhile_cons_of_pos hliteral] at htake hsplit
  rw [← hcur] at htake hdrop
  generalize (c :: t).dropWhile isLiteralChar = u at hdrop hsplit hstop
  have hrun : ∀ d ∈ t.takeWhile isLiteralChar, isLiteralChar d := fun d hd =>
    List.mem_takeWhile_imp hd
  generalize t.takeWhile isLiteralChar = run at htake hsplit hrun
  have hchars : ∀ d ∈ c :: run, isLiteralChar d := List.forall_mem_cons.2 ⟨hliteral, hrun⟩
  have hparen : ∀ d ∈ c :: run, isParen d = false := fun d hd =>
    isParen_of_isLiteralChar (hchars d hd)
  rw [← hsplit] at ht ⊢
  obtain ⟨htyped, hpending⟩ := ht.append
  rw [foldl_openAfter hparen] at hpending
  -- the first digit starts an integer, whatever is before it
  have hafter : e.after c = .integer := by
    rw [after_digit hc]
    revert he
    cases e <;> decide
  have hnumber := number_run (e := .integer) rfl hrun (hafter ▸ htyped.2.2)
  have hcount : (c :: run).count '.' ≤ 1 := by
    have hne : c ≠ '.' := by
      rintro rfl
      exact absurd hc (by decide)
    rw [List.count_cons_of_ne hne]
    exact hnumber.2
  have hof := Literal.ofLiteral?_run ⟨c :: run, hchars, ⟨c, List.mem_cons_self, hc⟩, hcount⟩
  dsimp only at hof
  unfold literal
  rw [htake, hof]
  dsimp only
  cases Decimal.toFloat? _ with
  | none => exact .limit (Or.inl rfl)
  | some v =>
    refine .value hdrop ?_ ?_ hpending ?_ hstop
    · rw [List.length_append]
      omega
    · rw [List.foldl_cons, hafter]
      have hend := hnumber.1
      revert hend
      cases run.foldl after .integer <;> decide
    · rw [completes_append, and_iff_right (unflawed_of_not_isParen hparen)]

/-- What goes on behind a factor. -/
def factorGoesOn (c : Char) : Bool :=
  isLiteralChar c || c == '%'

/-- What goes on behind a sum. -/
def sumGoesOn : Char → Bool :=
  operandsGoOn additive? (operandsGoOn multiplicative? factorGoesOn)

theorem isInfix_of_multiplicative? (e : Ending) (c : Char) (h : e.admits c)
    (hc : (multiplicative? (Separators.plainChar {} c)).isSome) : isInfix c := by
  have himp := of_admits
    (p := fun c => !(multiplicative? (Separators.plainChar {} c)).isSome || isInfix c) h
    fun e => by cases e <;> decide
  rw [hc] at himp
  exact himp

theorem isInfix_of_additive? (e : Ending) (c : Char) (h : e.admits c)
    (hc : (additive? (Separators.plainChar {} c)).isSome) : isInfix c := by
  have himp := of_admits
    (p := fun c => !(additive? (Separators.plainChar {} c)).isSome || isInfix c) h
    fun e => by cases e <;> decide
  rw [hc] at himp
  exact himp

/-- Nothing but a parenthesis can follow a sum. -/
theorem paren_of_stopsAt_sum (h : e.admits c) (hstop : StopsAt sumGoesOn (c :: t)) :
    c = '(' ∨ c = ')' := by
  have himp := of_admits (p := fun c => sumGoesOn c || isParen c) h fun e => by cases e <;> decide
  rw [stopsAt_cons.1 hstop, Bool.false_or, isParen, Bool.or_eq_true] at himp
  simpa using himp

theorem sum_passes (hr : Passes limit factorGoesOn r) : Passes limit sumGoesOn (sum r) :=
  operands_passes (operands_passes hr isInfix_of_multiplicative?) isInfix_of_additive?

/-- Where no operand is missing, an opening parenthesis can only follow a point, and nothing
completes that. -/
theorem not_completes_open (he : e.awaits = false) (h : e.admits '(') :
    ¬ Completes e ('(' :: t) := by
  have hpoint : e = .point := (admits_open.1 h).resolve_left (by simp [he])
  rw [completes_cons, hpoint]
  exact fun hc => nomatch hc.1

theorem group_outcome (hr : Passes limit factorGoesOn r) (ht : Pending .start (count + 1) t)
    (hcur : cur.rest = expressionOf t) :
    Outcome limit isLiteralChar .start count t (group r cur) := by
  have hread := sum_passes hr rfl ht hcur
  unfold group
  generalize sum r cur = result at hread ⊢
  cases hread with
  | @value v behind e' u rest_eq length_le operand pending completes_iff stops =>
    dsimp only
    rw [pending.skipBlank_eq rest_eq]
    cases u with
    | nil => cases pending.count_eq_zero
    | cons c u =>
      rcases paren_of_stopsAt_sum pending.admits stops with rfl | rfl
      · rw [rest_eq]
        exact .flaw fun hc => not_completes_open operand pending.admits (completes_iff.1 hc)
      · rw [rest_eq]
        have hclose : Pending .close count u := pending.tail
        have hcompletes : Completes e' (')' :: u) ↔ Completes .close u := by
          rw [completes_cons, isFlaw, operand]
          simp
        refine .value rfl ((Nat.le_succ _).trans length_le) rfl hclose
          (completes_iff.trans hcompletes) (hclose.stopsAt_literal (Or.inl rfl))
  | limit h => exact .limit h
  | flaw h => exact .flaw h

theorem atom_outcome (hr : Passes limit factorGoesOn r) (he : e.awaits) (ht : Pending e count t)
    (hsign : t.head? ≠ some '-') (hcur : cur.rest = expressionOf t) :
    Outcome limit isLiteralChar e count t (atom r cur) := by
  unfold atom
  rw [hcur]
  cases t with
  | nil =>
    exact .flaw fun hc => Bool.false_ne_true ((completes_nil.1 hc).symm.trans he)
  | cons c t =>
    dsimp only [expressionOf_cons]
    rcases cases_of_admits ht.admits with hc | rfl | rfl | rfl | rfl | hc
    · have hliteral : isLiteralChar c := by simp [isLiteralChar, hc]
      have hopen : c ≠ '(' := by
        rintro rfl
        exact absurd hc (by decide)
      rw [plainChar_of_isLiteralChar hliteral, if_neg hopen, if_pos hliteral]
      exact literal_outcome he ht hc hcur
    · have hinteger := admits_point.1 ht.admits
      rw [hinteger] at he
      cases he
    · have hflaw : e.isFlaw '(' = false := by
        revert he
        cases e <;> decide
      refine (group_outcome hr ht.tail rfl).of_rest (Nat.le_succ _) ?_
      rw [completes_cons, hflaw]
      simp
    · refine .flaw fun hc => ?_
      have hflaw := (completes_cons.1 hc).1
      rw [isFlaw, he] at hflaw
      cases hflaw
    · have hoperand : ¬ e.isOperand := by
        revert he
        cases e <;> decide
      exact absurd (admits_percent.1 ht.admits) hoperand
    · exact absurd (congrArg some (eq_minus_of_admits ht.admits hc he)) hsign

/-- Nothing that the keys put there is a power. -/
theorem power_eq (ht : Pending e count t) (hcur : cur.rest = expressionOf t) (v : Float) :
    power r v cur = .ok (v, cur) := by
  unfold power
  rw [ht.skipBlank_eq hcur]
  dsimp only
  rw [hcur]
  cases t with
  | nil => rfl
  | cons c t =>
    have hne := of_admits (p := fun c => Separators.plainChar {} c != '^') ht.admits
      fun e => by cases e <;> decide
    rw [expressionOf_cons]
    split
    · rename_i heq
      rw [(List.cons.inj heq).1] at hne
      cases hne
    · rfl

theorem percent_outcome (he : e.awaits = false) (ht : Pending e count t)
    (hstop : StopsAt isLiteralChar t) (hcur : cur.rest = expressionOf t) (v : Float) :
    Outcome limit factorGoesOn e count t (.ok (percent v cur)) := by
  unfold percent
  rw [ht.skipBlank_eq hcur]
  dsimp only
  rw [hcur]
  cases t with
  | nil => exact .value hcur le_rfl he ht Iff.rfl stopsAt_nil
  | cons c t =>
    have hsame := of_admits (p := fun c => (Separators.plainChar {} c == '%') == (c == '%'))
      ht.admits fun e => by cases e <;> decide
    rw [expressionOf_cons]
    by_cases hc : c = '%'
    · subst hc
      have htail : Pending .percent count t := ht.tail
      have hgroup := htail.stopsAt_literal (Or.inr rfl)
      refine .value rfl (Nat.le_succ _) rfl htail ?_ ?_
      · rw [completes_cons]
        exact and_iff_right rfl
      · cases t with
        | nil => exact stopsAt_nil
        | cons d t =>
          have hne : d ≠ '%' := by
            rintro rfl
            exact nomatch admits_percent.1 htail.admits
          rw [stopsAt_cons, factorGoesOn, stopsAt_cons.1 hgroup, beq_eq_false_iff_ne.2 hne]
          rfl
    · have hplain : Separators.plainChar {} c ≠ '%' := by
        simpa [hc] using hsame
      split
      · rename_i heq
        exact absurd (List.cons.inj heq).1 hplain
      · refine .value hcur le_rfl he ht Iff.rfl (stopsAt_cons.2 ?_)
        rw [factorGoesOn, stopsAt_cons.1 hstop, beq_eq_false_iff_ne.2 hc]
        rfl

/-- Where an operand is missing only a minus is read as a sign. -/
theorem plainChar_ne_sign (he : e.awaits) (h : e.admits c) (hc : c ≠ '-') :
    Separators.plainChar {} c ≠ '+' ∧ Separators.plainChar {} c ≠ '-' := by
  have himp := of_admits (p := fun c => isInfix c ||
    (Separators.plainChar {} c != '+' && Separators.plainChar {} c != '-')) h
    fun e => by cases e <;> decide
  have hoperator : isInfix c = false :=
    Bool.eq_false_iff.2 fun hi => hc (eq_minus_of_admits h hi he)
  rw [hoperator, Bool.false_or, Bool.and_eq_true_iff, bne_iff_ne, bne_iff_ne] at himp
  exact himp

/-- An atom, with its percent sign, where no sign is next. -/
theorem unsigned_outcome (hr : Passes limit factorGoesOn r) (he : e.awaits)
    (ht : Pending e count t) (hsign : t.head? ≠ some '-') (hcur : cur.rest = expressionOf t) :
    Outcome limit factorGoesOn e count t (level r cur) := by
  have hatom := atom_outcome hr he ht hsign hcur
  have hplain : ∀ d rest, cur.rest = d :: rest → d ≠ '+' ∧ d ≠ '-' := by
    intro d rest hd
    rw [hcur] at hd
    cases t with
    | nil => cases hd
    | cons c t =>
      rw [← (List.cons.inj hd).1]
      exact plainChar_ne_sign he ht.admits fun h => hsign (congrArg some h)
  unfold level
  rw [ht.skipBlank_eq hcur]
  dsimp only
  split
  · rename_i hd
    exact absurd rfl (hplain _ _ hd).1
  · rename_i hd
    exact absurd rfl (hplain _ _ hd).2
  · generalize atom r cur = result at hatom ⊢
    cases hatom with
    | value rest_eq length_le operand pending completes_iff stops =>
      dsimp only
      rw [power_eq pending rest_eq]
      exact (percent_outcome operand pending stops rest_eq _).of_rest length_le completes_iff
    | limit h => exact .limit h
    | flaw h => exact .flaw h

theorem level_of_minus {rest : Text} (hrest : cur.skipBlank.rest = '-' :: rest) :
    level r cur = (r (cur.skipBlank.after ['-'] rest)).map fun p => (-p.1, p.2) := by
  simp only [level, hrest]
  cases r (cur.skipBlank.after ['-'] rest) <;> rfl

theorem level_passes (hr : Passes limit factorGoesOn r) : Passes limit factorGoesOn (level r) := by
  intro e count t cur he ht hcur
  by_cases hsign : t.head? = some '-'
  · obtain ⟨t, rfl⟩ : ∃ u, t = '-' :: u := by
      cases t with
      | nil => cases hsign
      | cons c t => exact ⟨t, congrArg (· :: t) (Option.some.inj hsign)⟩
    have hminus : isInfix '-' := rfl
    have hread := hr.after rfl (ht.tail_of_isInfix hminus) cur ['-']
    have hcompletes := completes_cons_of_isInfix (e := e) (t := t) hminus
    have hrest : cur.skipBlank.rest = '-' :: expressionOf t := by
      rw [ht.skipBlank_eq hcur, hcur]
      rfl
    rw [level_of_minus hrest, ht.skipBlank_eq hcur]
    generalize r _ = result at hread ⊢
    cases hread with
    | value rest_eq length_le operand pending completes_iff stops =>
      exact .value rest_eq (length_le.trans (Nat.le_succ _)) operand pending
        (hcompletes.trans completes_iff) stops
    | limit h => exact .limit h
    | flaw h => exact .flaw fun hc => h (hcompletes.1 hc)
  · exact unsigned_outcome hr he ht hsign hcur

/-- Factors with any number of levels left. -/
theorem factor_passes (limit n : Nat) : Passes limit factorGoesOn (factor limit n) := by
  induction n with
  | zero => exact fun _ _ _ => .limit (Or.inr ⟨_, rfl⟩)
  | succ n ih => exact level_passes ih

/-- The value of a typed text whose parentheses are closed: there is one exactly if the text is
complete, unless a limit is reached. -/
theorem evaluateWithin_typed (limit : Nat) (ht : Typed t) (hclosed : unmatched t = 0) :
    (Completes .start t →
      (∃ v, evaluateWithin limit (expressionOf t) = .ok v) ∨
        ∃ err : EvalError, evaluateWithin limit (expressionOf t) = .error err ∧ err.IsLimit limit) ∧
    (¬ Completes .start t → ∀ v, evaluateWithin limit (expressionOf t) ≠ .ok v) := by
  have hstart : (Cursor.start (expressionOf t)).rest = expressionOf t := rfl
  have hread := sum_passes (factor_passes limit limit) rfl ⟨ht, hclosed⟩ hstart
  unfold evaluateWithin
  generalize sum (factor limit limit) _ = result at hread ⊢
  cases hread with
  | @value v behind e' u rest_eq length_le operand pending completes_iff stops =>
    dsimp only
    rw [pending.skipBlank_eq rest_eq, rest_eq]
    cases u with
    | nil =>
      have hcomplete := completes_iff.2 (completes_nil.2 operand)
      exact ⟨fun _ => Or.inl ⟨v, rfl⟩, fun h => absurd hcomplete h⟩
    | cons c u =>
      have hflaw : ¬ Completes e' (c :: u) := by
        rcases paren_of_stopsAt_sum pending.admits stops with rfl | rfl
        · exact not_completes_open operand pending.admits
        · exact absurd (pending.typed.2.1 rfl) (Nat.lt_irrefl 0)
      exact ⟨fun h => absurd (completes_iff.1 h) hflaw, fun _ v => nofun⟩
  | limit h => exact ⟨fun _ => Or.inr ⟨_, rfl, h⟩, fun _ v => nofun⟩
  | flaw h => exact ⟨fun hc => absurd hc h, fun _ v => nofun⟩

end Expression

end PocketCalculator
