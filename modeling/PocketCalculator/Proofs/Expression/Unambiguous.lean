import PocketCalculator.Proofs.Expression.Factors

/-!
# Derivations are unique

Two settled trees that start the same text are equal: blanks end at the first token, the first
token tells the kinds of factors apart, literals and names are as long as possible, and a factor
takes a `^` or a `%` exactly if one is next.
-/

namespace PocketCalculator

namespace Expression

variable {α : Type}

/-- Settled trees that start the same text are equal, if no character of `goesOn` is next. -/
structure Unambiguous (P : Phrase α) (goesOn : Char → Prop) : Prop where
  unique : ∀ {x y : α} {t u : Text}, P.text x ++ t = P.text y ++ u → P.Settled x t →
    P.Settled y u → Ends goesOn t → Ends goesOn u → x = y

theorem gap_unique {g g' : Gap} {c c' : Char} {t t' : Text} (hc : isBlank c = false)
    (hc' : isBlank c' = false) (e : (g : Text) ++ c :: t = g' ++ c' :: t') :
    g = g' ∧ c = c' ∧ t = t' := by
  obtain ⟨h, h'⟩ := run_unique g.2 g'.2 (stopsAt_cons.2 hc) (stopsAt_cons.2 hc') e
  exact ⟨Subtype.ext h, List.cons.inj h'⟩

section Operands

variable {P : Phrase α} {goesOn : Char → Prop} {operator? : Char → Option (Float → Float → Float)}

/-- Where nothing goes on, there is no operator. -/
theorem not_ends_moreText (hop : ∀ c, (operator? c).isSome → isBlank c = false ∧ ¬ goesOn c)
    {y : Further α} {ys : List (Further α)} {u : Text} (hs : P.MoreSettled operator? (y :: ys) u) :
    ¬ Ends (fun c => goesOn c ∨ (operator? c).isSome) (P.moreText (y :: ys) ++ u) := by
  intro h
  refine h y.operator ?_ (Or.inr hs.1)
  rw [moreText_cons_append, next?_gap_cons _ (hop _ hs.1).1]

theorem moreText_unique (h : Unambiguous P goesOn)
    (hop : ∀ c, (operator? c).isSome → isBlank c = false ∧ ¬ goesOn c)
    {xs ys : List (Further α)} {t u : Text} (e : P.moreText xs ++ t = P.moreText ys ++ u)
    (hx : P.MoreSettled operator? xs t) (hy : P.MoreSettled operator? ys u)
    (ht : Ends (fun c => goesOn c ∨ (operator? c).isSome) t)
    (hu : Ends (fun c => goesOn c ∨ (operator? c).isSome) u) : xs = ys := by
  induction xs generalizing ys with
  | nil =>
    cases ys with
    | nil => rfl
    | cons y ys =>
      have e : t = P.moreText (y :: ys) ++ u := e
      exact absurd (e ▸ ht) (not_ends_moreText hop hy)
  | cons x xs ih =>
    cases ys with
    | nil =>
      have e : P.moreText (x :: xs) ++ t = u := e
      exact absurd (e ▸ hu) (not_ends_moreText hop hx)
    | cons y ys =>
      obtain ⟨hx₁, hx₂, hx₃⟩ := hx
      obtain ⟨hy₁, hy₂, hy₃⟩ := hy
      rw [moreText_cons_append, moreText_cons_append] at e
      obtain ⟨hgap, hoperator, e₁⟩ := gap_unique (hop _ hx₁).1 (hop _ hy₁).1 e
      have hoperand := h.unique e₁ hx₂ hy₂ (moreText_stops hop hx₃ ht) (moreText_stops hop hy₃ hu)
      rw [hoperand, List.append_cancel_left_eq] at e₁
      have hxy : x = y := by
        cases x
        cases y
        congr
      rw [hxy, ih e₁ hx₃ hy₃]

theorem operands_unambiguous (h : Unambiguous P goesOn)
    (hop : ∀ c, (operator? c).isSome → isBlank c = false ∧ ¬ goesOn c) :
    Unambiguous (P.operands operator?) fun c => goesOn c ∨ (operator? c).isSome where
  unique {x y t u} e hx hy ht hu := by
    obtain ⟨x, xs⟩ := x
    obtain ⟨y, ys⟩ := y
    obtain ⟨hx₁, hx₂⟩ := hx
    obtain ⟨hy₁, hy₂⟩ := hy
    dsimp only [Phrase.operands] at e hx₁ hy₁ hx₂ hy₂
    rw [List.append_assoc, List.append_assoc] at e
    obtain rfl := h.unique e hx₁ hy₁ (moreText_stops hop hx₂ ht) (moreText_stops hop hy₂ hu)
    rw [List.append_cancel_left_eq] at e
    rw [moreText_unique h hop e hx₂ hy₂ ht hu]

end Operands

section Factors

variable {P : Phrase α}

theorem sum_unambiguous (h : Unambiguous P fun _ => False) :
    Unambiguous P.sum fun c => (c = '*' ∨ c = '/') ∨ c = '+' ∨ c = '-' := by
  have h₁ := operands_unambiguous h multiplicative?_starts
  simp only [false_or, multiplicative?_isSome_iff] at h₁
  have h₂ := operands_unambiguous h₁ additive?_starts
  simp only [additive?_isSome_iff] at h₂
  exact h₂

/-- Atoms that start the same text have the same first character, and so are of one kind. -/
theorem exists_starts_both {x y : Atom α} {t u : Text}
    (e : P.atom.text x ++ t = P.atom.text y ++ u) : ∃ c, x.Starts c ∧ y.Starts c := by
  obtain ⟨c, v, hc, hx⟩ := exists_starts P x
  obtain ⟨c', v', hc', hy⟩ := exists_starts P y
  rw [hc, hc'] at e
  obtain rfl := (List.cons.inj e).1
  exact ⟨c, hx, hy⟩

theorem atom_unique (h : Unambiguous P fun _ => False) {x y : Atom α} {t u : Text}
    (e : P.atom.text x ++ t = P.atom.text y ++ u) (hx : P.atom.Settled x t)
    (hy : P.atom.Settled y u) : x = y := by
  obtain ⟨c, hcx, hcy⟩ := exists_starts_both e
  cases x with
  | group inner close =>
    obtain rfl : c = '(' := hcx
    cases y with
    | group inner' close' =>
      have e : P.sum.text inner ++ (close ++ ')' :: t) =
          P.sum.text inner' ++ (close' ++ ')' :: u) := by
        simpa [Phrase.atom] using e
      obtain rfl := (sum_unambiguous h).unique e hx hy (ends_close _ _) (ends_close _ _)
      rw [List.append_cancel_left_eq] at e
      rw [(gap_unique (by decide) (by decide) e).1]
    | literal l => exact absurd hcy (by decide : ¬ isLiteralChar '(')
    | root y => exact absurd hcy (by decide : '(' ≠ 's')
  | literal l =>
    cases y with
    | group inner' close' =>
      obtain rfl : c = '(' := hcy
      exact absurd hcx (by decide : ¬ isLiteralChar '(')
    | literal l' =>
      have hrun := (run_unique l.isLiteralChar_of_mem l'.isLiteralChar_of_mem hx hy e).1
      cases l
      cases l'
      congr
    | root y =>
      obtain rfl : c = 's' := hcy
      exact absurd hcx (by decide : ¬ isLiteralChar 's')
  | root x =>
    obtain rfl : c = 's' := hcx
    cases y with
    | group inner' close' => exact absurd hcy (by decide : 's' ≠ '(')
    | literal l => exact absurd hcy (by decide : ¬ isLiteralChar 's')
    | root y =>
      have e : "sqrt".toList ++ (P.text x ++ t) = "sqrt".toList ++ (P.text y ++ u) := by
        simpa [Phrase.atom] using e
      rw [List.append_cancel_left_eq] at e
      rw [h.unique e hx.1 hy.1 (ends_false _) (ends_false _)]

theorem exponent_unique (h : Unambiguous P fun _ => False) {x y : Option (Gap × α)} {t u : Text}
    (e : P.exponentText x ++ t = P.exponentText y ++ u) (hx : P.ExponentSettled x t)
    (hy : P.ExponentSettled y u) : x = y := by
  rcases x with _ | ⟨g, x⟩ <;> rcases y with _ | ⟨g', y⟩
  · rfl
  · have e : t = _ := e
    rw [exponentText_some_append] at e
    exact absurd (e ▸ next?_gap_cons g' (by decide) _) hx
  · have e : _ = u := e
    rw [exponentText_some_append] at e
    exact absurd (e ▸ next?_gap_cons g (by decide) _) hy
  · rw [exponentText_some_append, exponentText_some_append] at e
    obtain ⟨rfl, -, e⟩ := gap_unique (by decide) (by decide) e
    rw [h.unique e hx hy (ends_false _) (ends_false _)]

theorem percent_unique {x y : Option Gap} {t u : Text}
    (e : Phrase.percentText x ++ t = Phrase.percentText y ++ u) (hx : Phrase.PercentSettled x t)
    (hy : Phrase.PercentSettled y u) : x = y := by
  rcases x with _ | g <;> rcases y with _ | g'
  · rfl
  · have e : t = _ := e
    rw [percentText_some_append] at e
    exact absurd (e ▸ next?_gap_cons g' (by decide) _) hx
  · have e : _ = u := e
    rw [percentText_some_append] at e
    exact absurd (e ▸ next?_gap_cons g (by decide) _) hy
  · rw [percentText_some_append, percentText_some_append] at e
    rw [(gap_unique (by decide) (by decide) e).1]

theorem plain_unique (h : Unambiguous P fun _ => False) {base base' : Atom α}
    {exponent exponent' : Option (Gap × α)} {percent percent' : Option Gap} {t u : Text}
    (e : P.atom.text base ++ (P.exponentText exponent ++ (Phrase.percentText percent ++ t)) =
      P.atom.text base' ++ (P.exponentText exponent' ++ (Phrase.percentText percent' ++ u)))
    (hx₁ : P.atom.Settled base (P.exponentText exponent ++ (Phrase.percentText percent ++ t)))
    (hx₂ : P.ExponentSettled exponent (Phrase.percentText percent ++ t))
    (hx₃ : Phrase.PercentSettled percent t)
    (hy₁ : P.atom.Settled base' (P.exponentText exponent' ++ (Phrase.percentText percent' ++ u)))
    (hy₂ : P.ExponentSettled exponent' (Phrase.percentText percent' ++ u))
    (hy₃ : Phrase.PercentSettled percent' u) :
    base = base' ∧ exponent = exponent' ∧ percent = percent' := by
  obtain rfl := atom_unique h e hx₁ hy₁
  rw [List.append_cancel_left_eq] at e
  obtain rfl := exponent_unique h e hx₂ hy₂
  rw [List.append_cancel_left_eq] at e
  exact ⟨rfl, rfl, percent_unique e hx₃ hy₃⟩

/-- The blanks before a factor. -/
def Level.gap : Level α → Gap
  | .positive gap _ => gap
  | .negative gap _ => gap
  | .plain gap _ _ _ => gap

/-- Whether a factor can start with a character, which tells the kinds of factors apart. -/
def Level.Starts : Level α → Char → Prop
  | .positive _ _, c => c = '+'
  | .negative _ _, c => c = '-'
  | .plain _ base _ _, c => base.Starts c

theorem exists_level_starts (P : Phrase α) (x : Level α) :
    ∃ c t, P.level.text x = (x.gap : Text) ++ c :: t ∧ x.Starts c ∧ isBlank c = false := by
  cases x with
  | positive gap x => exact ⟨'+', _, rfl, rfl, by decide⟩
  | negative gap x => exact ⟨'-', _, rfl, rfl, by decide⟩
  | plain gap base exponent? percent? =>
    obtain ⟨c, t, hc, hstarts⟩ := exists_starts P base
    refine ⟨c, t ++ (P.exponentText exponent? ++ Phrase.percentText percent?), ?_, hstarts,
      hstarts.isBlank_eq_false.1⟩
    simp [Phrase.level, Level.gap, hc]

/-- Factors that start the same text have the same blanks and the same first character. -/
theorem exists_level_starts_both {x y : Level α} {t u : Text}
    (e : P.level.text x ++ t = P.level.text y ++ u) :
    x.gap = y.gap ∧ ∃ c, x.Starts c ∧ y.Starts c := by
  obtain ⟨c, v, hc, hx, hblank⟩ := exists_level_starts P x
  obtain ⟨c', v', hc', hy, hblank'⟩ := exists_level_starts P y
  rw [hc, hc', List.append_assoc, List.append_assoc] at e
  obtain ⟨hgap, rfl, -⟩ := gap_unique hblank hblank' e
  exact ⟨hgap, c, hx, hy⟩

theorem level_unambiguous (h : Unambiguous P fun _ => False) :
    Unambiguous P.level fun _ => False where
  unique {x y t u} e hx hy _ _ := by
    obtain ⟨hgap, c, hcx, hcy⟩ := exists_level_starts_both e
    cases x with
    | positive gap x =>
      obtain rfl : c = '+' := hcx
      cases y with
      | positive gap' y =>
        obtain rfl : gap = gap' := hgap
        have e : P.text x ++ t = P.text y ++ u := by simpa [Phrase.level] using e
        rw [h.unique e hx hy (ends_false _) (ends_false _)]
      | negative gap' y => exact absurd hcy (by decide : '+' ≠ '-')
      | plain gap' base exponent? percent? => exact absurd rfl hcy.isBlank_eq_false.2.1
    | negative gap x =>
      obtain rfl : c = '-' := hcx
      cases y with
      | positive gap' y => exact absurd hcy (by decide : '-' ≠ '+')
      | negative gap' y =>
        obtain rfl : gap = gap' := hgap
        have e : P.text x ++ t = P.text y ++ u := by simpa [Phrase.level] using e
        rw [h.unique e hx hy (ends_false _) (ends_false _)]
      | plain gap' base exponent? percent? => exact absurd rfl hcy.isBlank_eq_false.2.2
    | plain gap base exponent? percent? =>
      cases y with
      | positive gap' y => exact absurd hcy hcx.isBlank_eq_false.2.1
      | negative gap' y => exact absurd hcy hcx.isBlank_eq_false.2.2
      | plain gap' base' exponent?' percent?' =>
        obtain rfl : gap = gap' := hgap
        have e : P.atom.text base ++ (P.exponentText exponent? ++
            (Phrase.percentText percent? ++ t)) = P.atom.text base' ++
              (P.exponentText exponent?' ++ (Phrase.percentText percent?' ++ u)) := by
          simpa [Phrase.level] using e
        obtain ⟨rfl, rfl, rfl⟩ := plain_unique h e hx.1 hx.2.1 hx.2.2 hy.1 hy.2.1 hy.2.2
        rfl

end Factors

theorem factor_unambiguous (n : Nat) : Unambiguous (Phrase.factor n) fun _ => False := by
  induction n with
  | zero =>
    constructor
    intro x
    exact Empty.elim x
  | succ n ih => exact level_unambiguous ih

end Expression

end PocketCalculator
