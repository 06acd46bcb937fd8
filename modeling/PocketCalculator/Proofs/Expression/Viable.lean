import PocketCalculator.Proofs.Expression.Evaluation
import PocketCalculator.Proofs.Expression.Places

/-!
# What is read before an error can be completed

A reader gives up at a character that nothing can stand before: what it has read until then is the
start of a text that it reads (`Viable`). A missing operand is completed by the literal `1` and each
open group by a parenthesis, so completing adds no level to what has been read.

Trees that were settled before the text that an error is about have to be settled before its
completion, too (`Stable`): a literal must not go on with the `1`.
-/

namespace PocketCalculator

namespace Expression

/-! ### Replacing what follows a tree -/

/-- Whether what takes all it can before one text does so before another. -/
structure Spares (rest rest' : Text) : Prop where
  literal : StopsAt isLiteralChar rest → StopsAt isLiteralChar rest'
  name : StopsAt Char.isLower rest → StopsAt Char.isLower rest'
  next : ∀ c, c = '^' ∨ c = '%' → next? rest ≠ some c → next? rest' ≠ some c

/-- Whether a text can follow every tree: it is empty or starts with a closing parenthesis. -/
def Closing (rest : Text) : Prop := ∀ c, rest.head? = some c → c = ')'

theorem closing_nil : Closing [] := fun _ hc => absurd hc (by simp)

theorem closing_close (rest : Text) : Closing (')' :: rest) := fun _ hc =>
  (Option.some.inj hc).symm

theorem next?_cons {c : Char} (t : Text) :
    next? (c :: t) = if isBlank c then next? t else some c := by
  unfold next?
  by_cases hc : isBlank c
  · rw [if_pos hc, List.dropWhile_cons_of_pos hc]
  · rw [if_neg hc, List.dropWhile_cons_of_neg hc, List.head?_cons]

theorem Closing.stopsAt {rest : Text} (h : Closing rest) {p : Char → Bool} (hp : p ')' = false) :
    StopsAt p rest := by
  intro c hc
  rw [h c hc, hp]

theorem Closing.next? {rest : Text} (h : Closing rest) {c : Char} (hc : c ≠ ')') :
    next? rest ≠ some c := by
  cases rest with
  | nil => simp [Expression.next?]
  | cons d t =>
    obtain rfl := h d rfl
    rw [next?_cons, if_neg (by decide)]
    exact fun e => hc (Option.some.inj e).symm

theorem spares_closing {rest rest' : Text} (h : Closing rest') : Spares rest rest' := by
  refine ⟨fun _ => h.stopsAt (by decide), fun _ => h.stopsAt (by decide), fun c hc _ => ?_⟩
  refine h.next? ?_
  rintro rfl
  revert hc
  decide

theorem Spares.cons {rest rest' : Text} (h : Spares rest rest') (c : Char) :
    Spares (c :: rest) (c :: rest') := by
  refine ⟨?_, ?_, ?_⟩
  · simp only [stopsAt_cons, imp_self]
  · simp only [stopsAt_cons, imp_self]
  · intro d hd
    rw [next?_cons, next?_cons]
    split
    · exact h.next d hd
    · exact id

theorem Spares.append {rest rest' : Text} (h : Spares rest rest') (t : Text) :
    Spares (t ++ rest) (t ++ rest') := by
  induction t with
  | nil => exact h
  | cons c t ih => exact ih.cons c

/-- A token hides what follows it. -/
theorem spares_token (gap : Gap) {c : Char} (hc : isBlank c = false) (rest rest' : Text) :
    Spares (gap ++ c :: rest) (gap ++ c :: rest') := by
  refine Spares.append ⟨?_, ?_, ?_⟩ gap
  · simp only [stopsAt_cons, imp_self]
  · simp only [stopsAt_cons, imp_self]
  · intro d _
    simp only [next?_cons, hc, Bool.false_eq_true, if_false, imp_self]

variable {α : Type} {P : Phrase α}

/-- Whether the trees of a phrase stay settled when what follows them is replaced. -/
def Stable (P : Phrase α) : Prop :=
  ∀ ⦃x : α⦄ ⦃rest rest' : Text⦄, P.Settled x rest → Spares rest rest' → P.Settled x rest'

section Stable

variable {operator? : Char → Option (Float → Float → Float)}

theorem moreSettled_stable (hP : Stable P) {ys : List (Further α)} {rest rest' : Text}
    (hs : P.MoreSettled operator? ys rest) (h : Spares rest rest') :
    P.MoreSettled operator? ys rest' := by
  induction ys with
  | nil => trivial
  | cons y ys ih => exact ⟨hs.1, hP hs.2.1 (h.append _), ih hs.2.2⟩

theorem operands_stable (hP : Stable P) : Stable (P.operands operator?) :=
  fun _ _ _ hs h => ⟨hP hs.1 (h.append _), moreSettled_stable hP hs.2 h⟩

theorem sum_stable (hP : Stable P) : Stable P.sum :=
  operands_stable (operands_stable hP)

theorem atom_stable (hP : Stable P) : Stable P.atom := by
  intro x rest rest' hs h
  cases x with
  | group inner close => exact sum_stable hP hs ((h.cons ')').append close)
  | literal l => exact h.literal hs
  | root argument =>
    refine ⟨hP hs.1 h, ?_⟩
    have hname := hs.2
    cases htext : P.text argument with
    | nil =>
      rw [htext] at hname
      exact h.name hname
    | cons c t =>
      rw [htext] at hname
      exact stopsAt_cons.2 (stopsAt_cons.1 hname)

theorem level_stable (hP : Stable P) : Stable P.level := by
  intro x rest rest' hs h
  cases x with
  | positive gap inner => exact hP hs h
  | negative gap inner => exact hP hs h
  | plain gap base exponent? percent? =>
    obtain ⟨hbase, hexponent, hpercent⟩ := hs
    refine ⟨atom_stable hP hbase ((h.append _).append _), ?_, ?_⟩
    · cases exponent? with
      | none => exact (h.append _).next '^' (Or.inl rfl) hexponent
      | some exponent => exact hP hexponent (h.append _)
    · cases percent? with
      | none => exact h.next '%' (Or.inr rfl) hpercent
      | some gap => trivial

theorem factor_stable (n : Nat) : Stable (Phrase.factor n) := by
  induction n with
  | zero => exact fun x => x.elim
  | succ n ih => exact level_stable ih

end Stable

/-! ### Completing a text -/

/-- Whether a text starts the text of a tree with a value, with only ones and closing parentheses
missing, and the tree can be followed by the end or by a parenthesis. -/
def Completable (P : Phrase α) (read : Text) : Prop :=
  ∃ x more value, P.text x = read ++ more ∧ P.value? x = some value ∧
    (∀ c ∈ more, c = '1' ∨ c = ')') ∧ ∀ rest, Closing rest → P.Settled x rest

/-- The literal that takes the place of a missing operand. -/
def oneLiteral : Literal :=
  ⟨['1'], by simp [isLiteralChar], ⟨'1', by simp⟩, by decide⟩

theorem exists_literal_one :
    ∃ (l : Literal) (value : Float), l.run = ['1'] ∧ l.decimal.toFloat? = some value := by
  have hfinite : oneLiteral.decimal.nearestBits < Double.infinity := by decide +kernel
  refine ⟨oneLiteral, Float.ofBits oneLiteral.decimal.nearestBits.toUInt64, rfl, ?_⟩
  unfold Decimal.toFloat?
  rw [if_pos hfinite]

theorem completable_missing (P : Phrase α) : Completable P.atom [] := by
  obtain ⟨l, value, hrun, hvalue⟩ := exists_literal_one
  refine ⟨.literal l, ['1'], value, hrun, hvalue, by simp, fun rest hrest => ?_⟩
  exact hrest.stopsAt (by decide)

theorem completable_group {read : Text} (h : Completable P.sum read) :
    Completable P.atom ('(' :: read) := by
  obtain ⟨x, more, value, htext, hvalue, hmore, hsettled⟩ := h
  refine ⟨.group x ⟨[], by simp⟩, more ++ [')'], value, ?_, hvalue, ?_, ?_⟩
  · simp [Phrase.atom, htext]
  · simpa [or_imp, forall_and] using hmore
  · exact fun rest _ => hsettled _ (closing_close rest)

/-- A group is completed by its closing parenthesis. -/
theorem completable_close (hP : Stable P) {inner : Operands (Operands α)} {gap : Gap}
    {rest : Text} {value : Float} (hs : P.sum.Settled inner (gap ++ rest))
    (hv : P.sum.value? inner = some value) :
    Completable P.atom ('(' :: (P.sum.text inner ++ gap)) := by
  refine ⟨.group inner gap, [')'], value, ?_, hv, by simp, fun rest' _ => ?_⟩
  · simp [Phrase.atom]
  · exact sum_stable hP hs (Spares.append (spares_closing (closing_close rest')) gap)

theorem completable_root {read left : Text} (h : Completable P read)
    (hstop : StopsAt Char.isLower (read ++ left)) :
    Completable P.atom ("sqrt".toList ++ read) := by
  obtain ⟨x, more, value, htext, hvalue, hmore, hsettled⟩ := h
  refine ⟨.root x, more, value.sqrt, ?_, ?_, hmore, fun rest hrest => ⟨hsettled rest hrest, ?_⟩⟩
  · simp [Phrase.atom, htext]
  · simp [Phrase.atom, hvalue]
  · rw [htext]
    cases read with
    | cons c t => exact stopsAt_cons.2 (stopsAt_cons.1 hstop)
    | nil =>
      cases more with
      | nil => exact hrest.stopsAt (by decide)
      | cons c t =>
        refine stopsAt_cons.2 ?_
        rcases hmore c List.mem_cons_self with rfl | rfl <;> decide

theorem completable_positive {read : Text} (h : Completable P read) (gap : Gap) :
    Completable P.level (gap ++ '+' :: read) := by
  obtain ⟨x, more, value, htext, hvalue, hmore, hsettled⟩ := h
  exact ⟨.positive gap x, more, value, by simp [Phrase.level, htext], hvalue, hmore, hsettled⟩

theorem completable_negative {read : Text} (h : Completable P read) (gap : Gap) :
    Completable P.level (gap ++ '-' :: read) := by
  obtain ⟨x, more, value, htext, hvalue, hmore, hsettled⟩ := h
  refine ⟨.negative gap x, more, -value, by simp [Phrase.level, htext], ?_, hmore, hsettled⟩
  simp [Phrase.level, hvalue]

theorem completable_base {read : Text} (h : Completable P.atom read) (gap : Gap) :
    Completable P.level (gap ++ read) := by
  obtain ⟨x, more, value, htext, hvalue, hmore, hsettled⟩ := h
  refine ⟨.plain gap x none none, more, value, ?_, ?_, hmore, fun rest hrest => ?_⟩
  · simp [Phrase.level, Phrase.exponentText, Phrase.percentText, htext]
  · simp [Phrase.level, Phrase.raised?, Phrase.hundredth, hvalue]
  · exact ⟨hsettled rest hrest, hrest.next? (by decide), hrest.next? (by decide)⟩

theorem completable_exponent (hP : Stable P) {base : Atom α} {gap gap' : Gap} {read rest : Text}
    {value : Float} (hs : P.atom.Settled base (gap' ++ '^' :: rest))
    (hv : P.atom.value? base = some value) (h : Completable P read) :
    Completable P.level (gap ++ (P.atom.text base ++ (gap' ++ '^' :: read))) := by
  obtain ⟨x, more, exponent, htext, hvalue, hmore, hsettled⟩ := h
  refine ⟨.plain gap base (some (gap', x)) none, more, value.pow exponent, ?_, ?_, hmore,
    fun rest' hrest' => ⟨?_, hsettled rest' hrest', hrest'.next? (by decide)⟩⟩
  · simp [Phrase.level, Phrase.exponentText, Phrase.percentText, htext]
  · simp [Phrase.level, Phrase.raised?, Phrase.hundredth, hv, hvalue]
  · rw [exponentText_some_append]
    exact atom_stable hP hs (spares_token gap' (by decide) _ _)

section Operands

variable {operator? : Char → Option (Float → Float → Float)}

/-- The operands after the first one, with the value of the operands before them. -/
def Phrase.more (operator? : Char → Option (Float → Float → Float)) (P : Phrase α)
    (value : Float) : Phrase (List (Further α)) where
  text := P.moreText
  value? := P.moreValue? operator? value
  Settled := P.MoreSettled operator?

theorem completable_further {c : Char} {combine : Float → Float → Float}
    (hop : operator? c = some combine) {read : Text} (h : Completable P read) (gap : Gap)
    (value : Float) : Completable (P.more operator? value) (gap ++ c :: read) := by
  obtain ⟨x, more, right, htext, hvalue, hmore, hsettled⟩ := h
  refine ⟨[⟨gap, c, x⟩], more, combine value right, ?_, ?_, hmore, fun rest hrest => ?_⟩
  · simp [Phrase.more, Phrase.moreText, Phrase.furtherText, htext]
  · simp [Phrase.more, Phrase.moreValue?, hop, hvalue]
  · exact ⟨by simp [hop], hsettled rest hrest, trivial⟩

/-- An operand stays settled before further operands when these are completed. -/
theorem Stable.settled_more (hP : Stable P) {x : α} {ys : List (Further α)} {gap : Gap} {c : Char}
    (hc : isBlank c = false) {read left more : Text}
    (hs : P.Settled x (gap ++ c :: (read ++ left)))
    (htext : P.moreText ys = (gap ++ c :: read) ++ more) (rest : Text) :
    P.Settled x (P.moreText ys ++ rest) := by
  have hsplit : P.moreText ys ++ rest = gap ++ c :: (read ++ more ++ rest) := by simp [htext]
  rw [hsplit]
  exact hP hs (spares_token gap hc _ _)

theorem completable_more_cons (hP : Stable P) {y : Further α} {combine : Float → Float → Float}
    (hop : operator? y.operator = some combine) {gap : Gap} {c : Char} (hc : isBlank c = false)
    {read left : Text} {value right : Float}
    (hs : P.Settled y.operand (gap ++ c :: (read ++ left))) (hv : P.value? y.operand = some right)
    (h : Completable (P.more operator? (combine value right)) (gap ++ c :: read)) :
    Completable (P.more operator? value)
      (y.gap ++ y.operator :: (P.text y.operand ++ (gap ++ c :: read))) := by
  obtain ⟨ys, more, value', htext, hvalue, hmore, hsettled⟩ := h
  refine ⟨y :: ys, more, value', ?_, ?_, hmore, fun rest hrest =>
    ⟨by simp [hop], hP.settled_more hc hs htext rest, hsettled rest hrest⟩⟩
  · have htext : P.moreText ys = (gap ++ c :: read) ++ more := htext
    have hcons := moreText_cons_append P y ys []
    simpa [Phrase.more, htext] using hcons
  · have hvalue : P.moreValue? operator? (combine value right) ys = some value' := hvalue
    simp [Phrase.more, Phrase.moreValue?, hop, hv, hvalue]

theorem completable_first {read : Text} (h : Completable P read) :
    Completable (P.operands operator?) read := by
  obtain ⟨x, more, value, htext, hvalue, hmore, hsettled⟩ := h
  refine ⟨⟨x, []⟩, more, value, ?_, ?_, hmore, fun rest hrest => ⟨hsettled rest hrest, trivial⟩⟩
  · simp [Phrase.operands, Phrase.moreText, htext]
  · simp [Phrase.operands, Phrase.moreValue?, hvalue]

theorem completable_operands (hP : Stable P) {x : α} {gap : Gap} {c : Char}
    (hc : isBlank c = false) {read left : Text} {value : Float}
    (hs : P.Settled x (gap ++ c :: (read ++ left))) (hv : P.value? x = some value)
    (h : Completable (P.more operator? value) (gap ++ c :: read)) :
    Completable (P.operands operator?) (P.text x ++ (gap ++ c :: read)) := by
  obtain ⟨ys, more, value', htext, hvalue, hmore, hsettled⟩ := h
  refine ⟨⟨x, ys⟩, more, value', ?_, ?_, hmore, fun rest hrest =>
    ⟨hP.settled_more hc hs htext rest, hsettled rest hrest⟩⟩
  · have htext : P.moreText ys = (gap ++ c :: read) ++ more := htext
    simp [Phrase.operands, htext]
  · have hvalue : P.moreValue? operator? value ys = some value' := hvalue
    simp [Phrase.operands, hv, hvalue]

end Operands

/-! ### Readers that give up -/

/-- Whether what is read before an error, at some place of a text, can be completed. -/
def ViableAt (P : Phrase α) (t : Text) (cur : Cursor) (position : Nat) (found : Option Char) :
    Prop :=
  ∃ read left, t = read ++ left ∧ cur.Reaches ⟨position, left⟩ ∧ left.head? = found ∧
    Completable P read

/-- What is read before an error of a reader can be completed to a tree of a phrase. -/
def Viable (r : Reader) (P : Phrase α) : Prop :=
  ∀ ⦃t : Text⦄ ⦃cur : Cursor⦄ ⦃position : Nat⦄ ⦃found : Option Char⦄, At t cur →
    r cur = .error (.unexpected position found) → ViableAt P t cur position found

/-- From the part that an error is in to the whole: what has been read before the part precedes
what is read of it. -/
theorem ViableAt.step {β : Type} {Q : Phrase β} {t t' : Text} {cur mid : Cursor}
    {position : Nat} {found : Option Char} (h : ViableAt Q t' mid position found) (before : Text)
    (hmid : cur.Reaches mid) (ht : t = before ++ t')
    (hwhole : ∀ read left, t' = read ++ left → Completable Q read →
      Completable P (before ++ read)) :
    ViableAt P t cur position found := by
  obtain ⟨read, left, rfl, hstop, hfound, hread⟩ := h
  exact ⟨before ++ read, left, by rw [ht, List.append_assoc], hmid.trans hstop, hfound,
    hwhole read left rfl hread⟩

/-- Nothing has been read where an error is about the cursor itself. -/
theorem viableAt_missing {cur : Cursor} {position : Nat} {found : Option Char}
    (h : cur.unexpected = .unexpected position found) :
    ViableAt P.atom cur.rest cur position found := by
  obtain ⟨rfl, rfl⟩ := EvalError.unexpected.inj h
  exact ⟨[], cur.rest, rfl, Cursor.Reaches.refl cur, rfl, completable_missing P⟩

section Operands

variable {r : Reader} {goesOn : Char → Prop} {operator? : Char → Option (Float → Float → Float)}

theorem chain_viable (hr : Reads r P goesOn) (ha : Advances r) (hP : Stable P) (hv : Viable r P)
    (hop : ∀ c, (operator? c).isSome → isBlank c = false) (count : Nat) {t : Text} {cur : Cursor}
    {value : Float} {position : Nat} {found : Option Char} (h : At t cur)
    (he : chain operator? r count value cur = .error (.unexpected position found)) :
    ∃ (gap : Gap) (c : Char) (read left : Text), isBlank c = false ∧
      t = gap ++ c :: (read ++ left) ∧ cur.Reaches ⟨position, left⟩ ∧ left.head? = found ∧
        Completable (P.more operator? value) (gap ++ c :: read) := by
  induction count generalizing t cur value with
  | zero => cases he
  | succ count ih =>
    obtain ⟨gap, ht⟩ := h.exists_gap
    unfold chain at he
    dsimp only at he
    split at he
    · cases he
    · rename_i c after hnext
      have htoken := Cursor.reaches_token hnext
      rw [hnext] at ht
      split at he
      · cases he
      · rename_i combine hcombine
        have hc : isBlank c = false := hop c (by simp [hcombine])
        split at he
        · rename_i hread
          cases he
          obtain ⟨read, left, hafter, hstop, hfound, hcomplete⟩ := hv (at_rest _) hread
          have hafter : after = read ++ left := hafter
          exact ⟨gap, c, read, left, hc, by rw [ht, hafter], htoken.trans hstop, hfound,
            completable_further hcombine hcomplete gap value⟩
        · -- this operand is fine, and a later one is not
          rename_i right behind hread
          obtain ⟨x, rest, hafter, hbehind, hsettled, hvalue⟩ := hr.sound (at_rest _) hread
          have hafter : after = P.text x ++ rest := hafter
          obtain ⟨gap', c', read, left, hc', rfl, hstop, hfound, hcomplete⟩ := ih hbehind he
          refine ⟨gap, c, P.text x ++ (gap' ++ c' :: read), left, hc, ?_,
            (htoken.trans (ha.reaches hread)).trans hstop, hfound, ?_⟩
          · rw [ht, hafter]
            simp
          · exact completable_more_cons (y := ⟨gap, c, x⟩) hP hcombine hc' hsettled hvalue hcomplete

theorem operands_viable (hr : Reads r P goesOn) (ha : Advances r) (hP : Stable P) (hv : Viable r P)
    (hop : ∀ c, (operator? c).isSome → isBlank c = false) :
    Viable (operands operator? r) (P.operands operator?) := by
  intro t cur position found h he
  unfold operands at he
  split at he
  · rename_i hread
    cases he
    exact (hv h hread).step [] (Cursor.Reaches.refl cur) rfl fun _ _ _ =>
      completable_first
  · rename_i first behind hread
    obtain ⟨x, rest, rfl, hbehind, hsettled, hvalue⟩ := hr.sound h hread
    obtain ⟨gap, c, read, left, hc, rfl, hstop, hfound, hcomplete⟩ :=
      chain_viable hr ha hP hv hop _ hbehind he
    refine ⟨P.text x ++ (gap ++ c :: read), left, by simp, (ha.reaches hread).trans hstop, hfound,
      completable_operands hP hc hsettled hvalue hcomplete⟩

end Operands

section Factors

variable {factor : Reader}

theorem sum_viable (hr : Reads factor P fun _ => False) (ha : Advances factor) (hP : Stable P)
    (hv : Viable factor P) : Viable (sum factor) P.sum := by
  have hterm : Viable (term factor) P.term :=
    operands_viable hr ha hP hv fun c hc => (multiplicative?_starts c hc).1
  exact operands_viable (term_reads hr) (operands_advances ha) (operands_stable hP) hterm
    fun c hc => (additive?_starts c hc).1

theorem group_viable (hr : Reads factor P fun _ => False) (ha : Advances factor) (hP : Stable P)
    (hv : Viable factor P) {cur : Cursor} {position : Nat} {found : Option Char}
    (he : group factor cur = .error (.unexpected position found)) :
    ViableAt P.atom ('(' :: cur.rest) cur position found := by
  unfold group at he
  split at he
  · rename_i hsum
    cases he
    exact (sum_viable hr ha hP hv (at_rest cur) hsum).step ['('] (Cursor.Reaches.refl cur)
      rfl fun _ _ _ => completable_group
  · rename_i value behind hsum
    obtain ⟨inner, rest, hcur, hbehind, hs, hvalue⟩ := (sum_reads hr).sound (at_rest cur) hsum
    obtain ⟨gap, rfl⟩ := hbehind.exists_gap
    dsimp only at he
    split at he
    · cases he
    · -- the sum is complete, and its parenthesis is missing
      cases he
      have hstop := ((sum_advances ha).reaches hsum).trans (Cursor.reaches_skipBlank behind)
      refine ⟨'(' :: (P.sum.text inner ++ gap), behind.skipBlank.rest, ?_, hstop, rfl,
        completable_close hP hs hvalue⟩
      simp [hcur]

theorem application_viable (hv : Viable factor P) {cur : Cursor} {position : Nat}
    {found : Option Char} (he : application factor cur = .error (.unexpected position found)) :
    ViableAt P.atom cur.rest cur position found := by
  unfold application at he
  dsimp only at he
  split at he
  · rename_i hname
    split at he
    · rename_i hread
      cases he
      have hrest : cur.rest = "sqrt".toList ++ cur.rest.dropWhile Char.isLower := by
        rw [← hname, List.takeWhile_append_dropWhile]
      have hstop : StopsAt Char.isLower (cur.rest.dropWhile Char.isLower) :=
        stopsAt_dropWhile cur.rest
      refine (hv (at_rest _) hread).step _ (Cursor.reaches_skipWhile _ cur) hrest ?_
      intro read left hsplit hcomplete
      have hsplit : cur.rest.dropWhile Char.isLower = read ++ left := hsplit
      exact completable_root hcomplete (hsplit ▸ hstop)
    · cases he
  · cases he

theorem atom_viable (hr : Reads factor P fun _ => False) (ha : Advances factor) (hP : Stable P)
    (hv : Viable factor P) {cur : Cursor} {position : Nat} {found : Option Char}
    (he : atom factor cur = .error (.unexpected position found)) :
    ViableAt P.atom cur.rest cur position found := by
  unfold atom at he
  split at he
  · exact viableAt_missing (Except.error.inj he)
  · rename_i c rest hcur
    split at he
    · rename_i hc
      subst hc
      rw [hcur]
      exact (group_viable hr ha hP hv he).step [] (Cursor.reaches_after hcur) rfl
        fun _ _ _ => id
    · split at he
      · unfold literal at he
        split at he
        · exact viableAt_missing (Except.error.inj he)
        · rename_i x _
          cases hx : x.toFloat? with
          | none => simp [hx] at he
          | some value => simp [hx] at he
      · split at he
        · exact application_viable hv he
        · exact viableAt_missing (Except.error.inj he)

/-- What is read behind a sign or a `^`. -/
theorem Viable.after {β : Type} {Q : Phrase β} (hv : Viable factor P) {t rest : Text} {c : Char}
    {cur : Cursor} {position : Nat} {found : Option Char} (before : Text)
    (hnext : cur.skipBlank.rest = c :: rest) (ht : t = before ++ cur.skipBlank.rest)
    (he : factor (cur.skipBlank.after [c] rest) = .error (.unexpected position found))
    (hwhole : ∀ read, Completable P read → Completable Q (before ++ c :: read)) :
    ViableAt Q t cur position found := by
  have hsplit : t = (before ++ [c]) ++ rest := by rw [ht, hnext, List.append_assoc]; rfl
  refine (hv (at_rest _) he).step _ (Cursor.reaches_token hnext) hsplit fun read _ _ hread => ?_
  simpa using hwhole read hread

theorem level_viable (hr : Reads factor P fun _ => False) (ha : Advances factor) (hP : Stable P)
    (hv : Viable factor P) : Viable (level factor) P.level := by
  intro t cur position found h he
  obtain ⟨gap, ht⟩ := h.exists_gap
  have hblank := Cursor.reaches_skipBlank cur
  unfold level at he
  dsimp only at he
  split at he
  · rename_i rest hnext
    exact hv.after _ hnext ht he fun read hread => completable_positive hread gap
  · rename_i rest hnext
    split at he
    · rename_i hread
      cases he
      exact hv.after _ hnext ht hread fun read hread => completable_negative hread gap
    · cases he
  · split at he
    · rename_i hatom
      cases he
      exact (atom_viable hr ha hP hv hatom).step _ hblank ht fun _ _ _ hread =>
        completable_base hread gap
    · rename_i value behind hatom
      obtain ⟨base, rest, hbase, hbehind, hs, hvalue⟩ := atom_sound hr hatom
      obtain ⟨gap', hrest⟩ := hbehind.exists_gap
      have hmid := hblank.trans ((atom_advances ha).reaches hatom)
      split at he
      · rename_i hpower
        cases he
        unfold power at hpower
        dsimp only at hpower
        split at hpower
        · rename_i after hnext
          split at hpower
          · rename_i hread
            cases hpower
            rw [hnext] at hrest
            have hpart :
                ViableAt P.level (gap ++ (P.atom.text base ++ rest)) behind position found :=
              hv.after (gap ++ (P.atom.text base ++ gap')) hnext
                (by rw [hrest, hnext]; simp) hread fun read hread => by
                  simpa using completable_exponent hP (hrest ▸ hs) hvalue hread
            exact hpart.step [] hmid (by rw [ht, hbase]; rfl) fun _ _ _ => id
          · cases hpower
        · cases hpower
      · cases he

end Factors

theorem factor_viable (limit n : Nat) : Viable (factor limit n) (Phrase.factor n) := by
  induction n with
  | zero =>
    intro t cur position found _ he
    cases he
  | succ n ih =>
    exact level_viable (factor_reads limit n) (factor_advances limit n) (factor_stable n) ih

/-- What is before an unexpected character is the start of an expression with a value. -/
theorem evaluateWithin_viable {n : Nat} {t : Text} {position : Nat} {found : Option Char}
    (he : evaluateWithin n t = .error (.unexpected position found)) :
    ∃ before after more value, t = before ++ after ∧ utf8Length before = position ∧
      after.head? = found ∧ (∀ c ∈ more, c = '1' ∨ c = ')') ∧
        evaluateWithin n (before ++ more) = .ok value := by
  have hr := factor_reads n n
  have ha := factor_advances n n
  have hP := factor_stable n
  have hstart := at_rest (Cursor.start t)
  unfold evaluateWithin at he
  split at he
  · rename_i hsum
    cases he
    obtain ⟨read, left, ht, ⟨read', ht', hposition⟩, hfound, x, more, value, htext, hvalue, hmore,
      hsettled⟩ := sum_viable hr ha hP (factor_viable n n) hstart hsum
    have hsame : read' = read := List.append_cancel_right (ht'.symm.trans ht)
    refine ⟨read, left, more, value, ht, ?_, hfound, hmore, ?_⟩
    · rw [hsame] at hposition
      simpa [Cursor.start] using hposition.symm
    · refine evaluateWithin_eq_ok_iff.2 ⟨⟨x, ⟨[], by simp⟩⟩, ⟨?_, hsettled [] closing_nil⟩, hvalue⟩
      simpa using htext
  · -- what is read is an expression already, and something follows it
    rename_i value behind hsum
    obtain ⟨x, rest, ht, hbehind, hs, hvalue⟩ := (sum_reads hr).sound hstart hsum
    obtain ⟨gap, rfl⟩ := hbehind.exists_gap
    dsimp only at he
    split at he
    · cases he
    · cases he
      obtain ⟨read, ht', hposition⟩ :=
        ((sum_advances ha).reaches hsum).trans (Cursor.reaches_skipBlank behind)
      have ht : t = ((Phrase.factor n).sum.text x ++ gap) ++ behind.skipBlank.rest := by
        rw [List.append_assoc]
        exact ht
      have hsame : read = (Phrase.factor n).sum.text x ++ gap :=
        List.append_cancel_right (ht'.symm.trans ht)
      refine ⟨read, behind.skipBlank.rest, [], value, ht', ?_, rfl, by simp, ?_⟩
      · simpa [Cursor.start] using hposition.symm
      · have hgap := sum_stable hP hs (Spares.append (spares_closing closing_nil) gap)
        rw [List.append_nil] at hgap
        refine evaluateWithin_eq_ok_iff.2 ⟨⟨x, gap⟩, ⟨?_, hgap⟩, hvalue⟩
        rw [List.append_nil, hsame]

end Expression

end PocketCalculator
