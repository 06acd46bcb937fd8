import PocketCalculator.Proofs.Expression.Decided
import PocketCalculator.Proofs.Expression.Descent

/-!
# The nesting limit is transparent

The descent ends for every text, with a limit and without one: more fuel than the text is long is
enough. Every factor leaves the counter as it was. The evaluator answers what the descent without a
limit answers, unless that enters a factor too deep: then the answer is about the first such factor
(`nestingLimit_transparent`).

The descent with the limit and the one without are compared with the evaluator by the same lemmas,
one a part of the grammar, in which the factors inside go with any reader (`Simulates`).
`factor_simulates` ties them by induction on the fuel, which bounds the text that is left.
-/

namespace PocketCalculator

open Reading

namespace Descent

open Cursor (skipWhile_of_stopsAt skipBlank_skipBlank)

/-- The first factor that is entered inside `limit` others or more. -/
def Trail.tooDeep? (limit : Nat) (trail : Trail) : Option Entry :=
  trail.entered.find? (limit < ·.active)

/-- The error about the first factor that was entered too deep; an answer if none was. -/
def Trail.limited {α : Type} (limit : Nat) (trail : Trail) (answer : Except EvalError α) :
    Except EvalError α :=
  match trail.tooDeep? limit with
  | none => answer
  | some entry => .error (.nestedTooDeep entry.place.position limit)

section Trails

variable {limit : Nat} {trail last : Trail} {entry : Entry}

theorem tooDeep?_mono (h : trail.entered <+: last.entered)
    (he : trail.tooDeep? limit = some entry) : last.tooDeep? limit = some entry :=
  h.find?_eq_some he

theorem tooDeep?_enter (h : trail.tooDeep? limit = none) :
    trail.enter.tooDeep? limit =
      if limit ≤ trail.depth then some ⟨trail.depth + 1, trail.cursor⟩ else none := by
  unfold Trail.tooDeep? at h ⊢
  simp only [Trail.enter, List.find?_append, h, Option.none_or, List.find?_singleton,
    decide_eq_true_eq, Nat.lt_add_one_iff]

variable {α : Type} {answer : Except EvalError α}

theorem limited_of_none (h : trail.tooDeep? limit = none) :
    trail.limited limit answer = answer := by
  unfold Trail.limited
  rw [h]

theorem limited_of_some (h : trail.tooDeep? limit = some entry) :
    trail.limited limit answer = .error (.nestedTooDeep entry.place.position limit) := by
  unfold Trail.limited
  rw [h]

end Trails

/-- What holds when a reading with or without a limit has gone from `trail` to `last`, and a reader
with a limit has an answer at the same place. From `depth ≤ limit` on, the answer is the outcome of
the reading up to the first factor that is too deep. -/
structure Follows {α : Type} (limit? : Option Nat) (limit : Nat) (trail last : Trail)
    (outcome : Except EvalError α) (answer : Except EvalError (α × Cursor)) : Prop where
  depth_eq : last.depth = trail.depth
  length_le : last.cursor.rest.length ≤ trail.cursor.rest.length
  entered : trail.entered <+: last.entered
  /-- With the limit no factor is entered too deep. -/
  guarded : limit? = some limit → trail.tooDeep? limit = none → last.tooDeep? limit = none
  /-- Without a limit no error is about one. -/
  reports : ∀ position n, outcome = .error (.nestedTooDeep position n) → limit? = some n
  /-- The first factor that is too deep is one level too deep. -/
  active_eq : trail.depth ≤ limit → trail.tooDeep? limit = none →
    ∀ entry, last.tooDeep? limit = some entry → entry.active = limit + 1
  answer_eq : trail.depth ≤ limit → trail.tooDeep? limit = none →
    answer = last.limited limit (outcome.map (·, last.cursor))

/-- A reading ends, and what it does goes with the answer of a reader. -/
def Simulates {α : Type} (limit? : Option Nat) (limit : Nat) (b : Reading Trail α) (trail : Trail)
    (answer : Except EvalError (α × Cursor)) : Prop :=
  ∃ outcome last, b.answer? trail = some (outcome, last) ∧
    Follows limit? limit trail last outcome answer

section Steps

variable {α β : Type} {limit? : Option Nat} {limit : Nat} {b : Reading Trail α} {trail : Trail}
  {answer : Except EvalError (α × Cursor)}

theorem Follows.refl {outcome : Except EvalError α}
    (h : ∀ position n, outcome = .error (.nestedTooDeep position n) → limit? = some n) :
    Follows limit? limit trail trail outcome (outcome.map (·, trail.cursor)) where
  depth_eq := rfl
  length_le := le_rfl
  entered := List.prefix_rfl
  guarded _ hnone := hnone
  reports := h
  active_eq _ hnone entry he := by
    rw [hnone] at he
    cases he
  answer_eq _ hnone := (limited_of_none hnone).symm

theorem simulates_pure (a : α) : Simulates limit? limit (pure a) trail (.ok (a, trail.cursor)) :=
  ⟨.ok a, trail, rfl, Follows.refl fun _ _ h => by cases h⟩

theorem simulates_throw {e : EvalError}
    (h : ∀ position n, e = .nestedTooDeep position n → limit? = some n) :
    Simulates limit? limit (throw e : Reading Trail α) trail (.error e) :=
  ⟨.error e, trail, rfl, .refl fun position n he => h position n (Except.error.inj he)⟩

theorem simulates_unexpected :
    Simulates limit? limit trails.unexpected trail (.error trail.cursor.unexpected) :=
  simulates_throw fun _ _ h => by cases h

/-- A reading that goes on from another place. -/
theorem Simulates.of_goTo {b' : Reading Trail α} (cur : Cursor)
    (h : Simulates limit? limit b (trail.goTo cur) answer)
    (hle : cur.rest.length ≤ trail.cursor.rest.length)
    (heq : b'.answer? trail = b.answer? (trail.goTo cur)) :
    Simulates limit? limit b' trail answer := by
  obtain ⟨outcome, last, hrun, hfollows⟩ := h
  exact ⟨outcome, last, heq.trans hrun,
    { hfollows with length_le := hfollows.length_le.trans hle }⟩

theorem Simulates.bind {k : α → Reading Trail β} {f : α → Cursor → Except EvalError (β × Cursor)}
    {answer' : Except EvalError (β × Cursor)} (h : Simulates limit? limit b trail answer)
    (hanswer : answer' = answer.bind fun x => f x.1 x.2)
    (hk : ∀ a last, last.depth = trail.depth →
      last.cursor.rest.length ≤ trail.cursor.rest.length →
      Simulates limit? limit (k a) last (f a last.cursor)) :
    Simulates limit? limit (b >>= k) trail answer' := by
  subst hanswer
  obtain ⟨outcome, mid, hrun, hb⟩ := h
  cases outcome with
  | error e =>
    have hreports : ∀ position n,
        (.error e : Except EvalError β) = .error (.nestedTooDeep position n) → limit? = some n :=
      fun position n he => hb.reports position n (congrArg Except.error (Except.error.inj he))
    refine ⟨.error e, mid, answer?_bind_error hrun,
      { hb with reports := hreports, answer_eq := fun hdepth hnone => ?_ }⟩
    rw [hb.answer_eq hdepth hnone]
    cases hmid : mid.tooDeep? limit with
    | none =>
      rw [limited_of_none hmid, limited_of_none hmid]
      rfl
    | some entry =>
      rw [limited_of_some hmid, limited_of_some hmid]
      rfl
  | ok a =>
    obtain ⟨outcome, last, hrun', hk⟩ := hk a mid hb.depth_eq hb.length_le
    have hmid_le : trail.depth ≤ limit → mid.depth ≤ limit := hb.depth_eq.le.trans
    refine ⟨outcome, last, (answer?_bind_ok hrun).trans hrun',
      { depth_eq := hk.depth_eq.trans hb.depth_eq
        length_le := hk.length_le.trans hb.length_le
        entered := hb.entered.trans hk.entered
        guarded := fun hlimit hnone => hk.guarded hlimit (hb.guarded hlimit hnone)
        reports := hk.reports
        active_eq := fun hdepth hnone entry he => ?_
        answer_eq := fun hdepth hnone => ?_ }⟩
    · cases hmid : mid.tooDeep? limit with
      | none => exact hk.active_eq (hmid_le hdepth) hmid entry he
      | some first =>
        rw [tooDeep?_mono hk.entered hmid] at he
        exact hb.active_eq hdepth hnone entry (hmid.trans he)
    · rw [hb.answer_eq hdepth hnone]
      cases hmid : mid.tooDeep? limit with
      | none =>
        rw [limited_of_none hmid]
        exact hk.answer_eq (hmid_le hdepth) hmid
      | some first =>
        -- what the reading does behind a factor that is too deep does not matter
        rw [limited_of_some hmid, limited_of_some (tooDeep?_mono hk.entered hmid)]
        rfl

end Steps

/-! ### Tokens -/

theorem head?_ne_of_nil {t : Text} (h : t = []) (c : Char) : t.head? ≠ some c := by
  simp [h]

theorem head?_ne_of_cons {t rest : Text} {c d : Char} (h : t = d :: rest) (hd : d ≠ c) :
    t.head? ≠ some c := by
  simpa [h] using hd

theorem head?_ne {t : Text} {c : Char} (h : ∀ rest, t = c :: rest → False) : t.head? ≠ some c := by
  intro e
  obtain ⟨rest, hrest⟩ := List.head?_eq_some_iff.1 e
  exact h rest hrest

theorem length_skipBlank_le (cur : Cursor) : cur.skipBlank.rest.length ≤ cur.rest.length :=
  (Cursor.reaches_skipBlank cur).length_le

/-- A token makes the text that is left shorter. -/
theorem length_lt_of_token {cur : Cursor} {c : Char} {rest : Text}
    (h : cur.skipBlank.rest = c :: rest) : rest.length < cur.rest.length := by
  have hle := length_skipBlank_le cur
  rw [h, List.length_cons] at hle
  exact hle

section Tokens

variable {α : Type} {limit? : Option Nat} {limit : Nat} {yes no : Reading Trail α} {trail : Trail}
  {answer : Except EvalError (α × Cursor)} {c : Char} {rest : Text}

/-- What is done with a character is done behind it. -/
theorem Simulates.of_token (hnext : trail.cursor.skipBlank.rest = c :: rest)
    (h : Simulates limit? limit yes (trail.goTo (trail.cursor.skipBlank.after [c] rest)) answer) :
    Simulates limit? limit (do if ← trails.eat c then yes else no) trail answer :=
  h.of_goTo _ (length_lt_of_token hnext).le (answer?_then (answer?_eat hnext) yes no)

/-- What is done without it is done behind the blank characters. -/
theorem Simulates.of_no_token (hnext : trail.cursor.skipBlank.rest.head? ≠ some c)
    (h : Simulates limit? limit no (trail.goTo trail.cursor.skipBlank) answer) :
    Simulates limit? limit (do if ← trails.eat c then yes else no) trail answer :=
  h.of_goTo _ (length_skipBlank_le _) (answer?_else (answer?_eat_ne hnext) yes no)

end Tokens

/-- A reading goes with a reader, at some depth and wherever fewer than `bound` characters are
left. -/
def SimulatesBelow (limit? : Option Nat) (limit bound depth : Nat) (b : Reading Trail Float)
    (r : Reader) : Prop :=
  ∀ trail, trail.depth = depth → trail.cursor.rest.length < bound →
    Simulates limit? limit b trail (r trail.cursor)

/-! ### Sums and products -/

theorem multiplicative?_eq (c : Char) :
    Expression.multiplicative? c =
      if c = '*' then some (· * ·) else if c = '/' then some (· / ·) else none := by
  unfold Expression.multiplicative?
  split <;> simp_all

theorem additive?_eq (c : Char) :
    Expression.additive? c =
      if c = '+' then some (· + ·) else if c = '-' then some (· - ·) else none := by
  unfold Expression.additive?
  split <;> simp_all

section Operands

variable {operator? : Char → Option (Float → Float → Float)} {first second : Char}
  {f g : Float → Float → Float} {inner : Reading Trail Float} {r : Reader} {limit? : Option Nat}
  {limit bound depth fuel : Nat} {trail : Trail}

/-- Where no operator is next, the operands end. -/
theorem chain_stops (hfirst : trail.cursor.skipBlank.rest.head? ≠ some first)
    (hsecond : trail.cursor.skipBlank.rest.head? ≠ some second) (value : Float) :
    Simulates limit? limit (trails.chain first second f g inner (fuel + 1) value) trail
      (.ok (value, trail.cursor.skipBlank)) := by
  have hagain : (trail.goTo trail.cursor.skipBlank).cursor.skipBlank.rest.head? ≠ some second := by
    rwa [Trail.cursor_goTo, skipBlank_skipBlank]
  refine Simulates.of_no_token hfirst (Simulates.of_no_token hagain ?_)
  rw [Trail.goTo_goTo, Trail.cursor_goTo, skipBlank_skipBlank]
  exact simulates_pure value

/-- An operator is followed by its right operand. -/
theorem chain_goes_on
    (hop : ∀ c, operator? c = if c = first then some f else if c = second then some g else none)
    {c : Char} {rest : Text} (hnext : trail.cursor.skipBlank.rest = c :: rest)
    {combine : Float → Float → Float} (hc : operator? c = some combine) (value : Float) :
    (trails.chain first second f g inner (fuel + 1) value).answer? trail =
      (inner >>= fun right =>
        trails.chain first second f g inner fuel (combine value right)).answer?
          (trail.goTo (trail.cursor.skipBlank.after [c] rest)) := by
  rw [hop] at hc
  rw [Scanner.chain]
  by_cases hfirst : c = first
  · subst hfirst
    rw [if_pos rfl, Option.some.injEq] at hc
    rw [answer?_then (answer?_eat hnext), ← hc]
  · rw [if_neg hfirst, Option.ite_none_right_eq_some, Option.some.injEq] at hc
    obtain ⟨rfl, rfl⟩ := hc
    have hagain : (trail.goTo trail.cursor.skipBlank).cursor.skipBlank.rest = c :: rest := by
      rw [Trail.cursor_goTo, skipBlank_skipBlank, hnext]
    rw [answer?_else (answer?_eat_ne (head?_ne_of_cons hnext hfirst)),
      answer?_then (answer?_eat hagain), Trail.goTo_goTo, Trail.cursor_goTo, skipBlank_skipBlank]

/-- There are fewer operators than characters left, so that all of them are read. -/
theorem chain_simulates
    (hop : ∀ c, operator? c = if c = first then some f else if c = second then some g else none)
    (hr : SimulatesBelow limit? limit bound depth inner r) {count : Nat}
    (hdepth : trail.depth = depth) (hbound : trail.cursor.rest.length < bound)
    (hfuel : trail.cursor.rest.length < fuel) (hcount : trail.cursor.rest.length ≤ count)
    (value : Float) :
    Simulates limit? limit (trails.chain first second f g inner fuel value) trail
      (Expression.chain operator? r count value trail.cursor) := by
  induction count generalizing trail fuel value with
  | zero =>
    obtain ⟨fuel, rfl⟩ := Nat.exists_eq_add_one_of_ne_zero (Nat.ne_zero_of_lt hfuel)
    have hrest : trail.cursor.rest = [] := List.length_eq_zero_iff.1 (Nat.le_zero.1 hcount)
    have hsame : trail.cursor.skipBlank = trail.cursor :=
      skipWhile_of_stopsAt (hrest ▸ stopsAt_nil)
    have hnext : trail.cursor.skipBlank.rest = [] := by rw [hsame, hrest]
    have hstops : Simulates limit? limit (trails.chain first second f g inner (fuel + 1) value)
        trail (.ok (value, trail.cursor.skipBlank)) :=
      chain_stops (head?_ne_of_nil hnext _) (head?_ne_of_nil hnext _) value
    rwa [hsame] at hstops
  | succ count ih =>
    obtain ⟨fuel, rfl⟩ := Nat.exists_eq_add_one_of_ne_zero (Nat.ne_zero_of_lt hfuel)
    unfold Expression.chain
    dsimp only
    split
    · rename_i hnext
      exact chain_stops (head?_ne_of_nil hnext _) (head?_ne_of_nil hnext _) value
    · rename_i c rest hnext
      split
      · rename_i hnone
        rw [hop] at hnone
        split_ifs at hnone with hfirst hsecond
        exact chain_stops (head?_ne_of_cons hnext hfirst) (head?_ne_of_cons hnext hsecond) value
      · rename_i combine hoperator
        have hshorter := length_lt_of_token hnext
        have hright := hr (trail.goTo (trail.cursor.skipBlank.after [c] rest)) hdepth
          (hshorter.trans hbound)
        refine Simulates.of_goTo _ ?_ hshorter.le (chain_goes_on hop hnext hoperator value)
        refine hright.bind
          (f := fun right => Expression.chain operator? r count (combine value right)) ?_
          fun right last hlast hlength => ?_
        · dsimp only [Trail.cursor_goTo]
          cases r (trail.cursor.skipBlank.after [c] rest) <;> rfl
        · have hlast_lt := hlength.trans_lt hshorter
          exact ih (hlast.trans hdepth) (hlast_lt.trans hbound)
            (Nat.lt_of_lt_of_le hlast_lt (Nat.le_of_lt_succ hfuel))
            (Nat.le_of_lt_succ (hlast_lt.trans_le hcount)) (combine value right)

theorem operands_simulates
    (hop : ∀ c, operator? c = if c = first then some f else if c = second then some g else none)
    (hfuel : bound ≤ fuel) (hr : SimulatesBelow limit? limit bound depth inner r) :
    SimulatesBelow limit? limit bound depth (trails.operands first second f g fuel inner)
      (Expression.operands operator? r) := by
  intro trail hdepth hbound
  refine (hr trail hdepth hbound).bind
    (f := fun first behind => Expression.chain operator? r behind.rest.length first behind) ?_
    fun value last hlast hlength => ?_
  · unfold Expression.operands
    cases r trail.cursor <;> rfl
  · have hlast_lt := hlength.trans_lt hbound
    exact chain_simulates hop hr (hlast.trans hdepth) hlast_lt (hlast_lt.trans_le hfuel) le_rfl
      value

end Operands

section Grammar

variable {limit? : Option Nat} {limit bound depth fuel : Nat} {inner : Reading Trail Float}
  {r : Reader} {trail : Trail}

/-- A factor at another place, and what is done with its value. -/
theorem operand_simulates (hr : SimulatesBelow limit? limit bound depth inner r)
    (hdepth : trail.depth = depth) {cur : Cursor} (hbound : cur.rest.length < bound)
    (g : Float → Float) {answer : Except EvalError (Float × Cursor)}
    (hanswer : answer = (r cur).map fun x => (g x.1, x.2)) :
    Simulates limit? limit (do return g (← inner)) (trail.goTo cur) answer := by
  refine (hr (trail.goTo cur) hdepth hbound).bind (f := fun value behind => .ok (g value, behind))
    ?_ fun value last _ _ => simulates_pure (g value)
  rw [hanswer, Trail.cursor_goTo]
  cases r cur <;> rfl

theorem sum_simulates (hfuel : bound ≤ fuel)
    (hr : SimulatesBelow limit? limit bound depth inner r) :
    SimulatesBelow limit? limit bound depth (trails.sum fuel inner) (Expression.sum r) := by
  have hproduct : SimulatesBelow limit? limit bound depth (trails.product fuel inner)
      (Expression.term r) :=
    operands_simulates multiplicative?_eq hfuel hr
  exact operands_simulates additive?_eq hfuel hproduct

/-! ### Atoms -/

/-- A literal is read where one of its characters is next. -/
theorem number_simulates {c : Char} {rest : Text} (hcur : trail.cursor.rest = c :: rest)
    (hc : Expression.isLiteralChar c) :
    Simulates limit? limit trails.number trail (Expression.literal trail.cursor) := by
  have hhead : (trail.cursor.rest.takeWhile Expression.isLiteralChar).head? =
      trail.cursor.rest.head? := by
    rw [hcur, List.takeWhile_cons_of_pos hc]
    rfl
  have hle := (Cursor.reaches_skipWhile Expression.isLiteralChar trail.cursor).length_le
  unfold Expression.literal
  cases hliteral : Decimal.ofLiteral? (trail.cursor.rest.takeWhile Expression.isLiteralChar) with
  | none =>
    have hunexpected : Simulates limit? limit (throw trail.cursor.unexpected : Reading Trail Float)
        (trail.goTo (trail.cursor.skipWhile Expression.isLiteralChar))
        (.error trail.cursor.unexpected) :=
      simulates_throw fun _ _ h => by cases h
    refine hunexpected.of_goTo _ hle ?_
    unfold Scanner.number
    rw [answer?_look_bind, answer?_run_bind, hliteral, hhead]
    rfl
  | some x =>
    refine Simulates.of_goTo (b := x.toFloat?.elim (throw .overflow) pure) _ ?_ hle ?_
    · dsimp only
      cases x.toFloat? with
      | none => exact simulates_throw fun _ _ h => by cases h
      | some value => exact simulates_pure value
    · unfold Scanner.number
      rw [answer?_look_bind, answer?_run_bind, hliteral]

/-- What is read behind the expression in a group. -/
def closing (value : Float) : Reader := fun behind =>
  match behind.skipBlank.rest with
  | ')' :: rest => .ok (value, behind.skipBlank.after [')'] rest)
  | _ => .error behind.skipBlank.unexpected

theorem group_simulates (hfuel : bound ≤ fuel)
    (hr : SimulatesBelow limit? limit bound depth inner r) :
    SimulatesBelow limit? limit bound depth (trails.group fuel inner) (Expression.group r) := by
  intro trail hdepth hbound
  have hsum := sum_simulates hfuel hr trail hdepth hbound
  refine hsum.bind (f := closing) ?_ fun value last _ _ => ?_
  · unfold Expression.group
    cases Expression.sum r trail.cursor <;> rfl
  · unfold closing
    split
    · rename_i rest hclose
      exact (simulates_pure value).of_token hclose
    · rename_i hother
      exact simulates_unexpected.of_no_token (head?_ne hother)

theorem application_simulates (hr : SimulatesBelow limit? limit bound depth inner r)
    (hdepth : trail.depth = depth) (hbound : trail.cursor.rest.length ≤ bound) {c : Char}
    {rest : Text} (hcur : trail.cursor.rest = c :: rest) (hc : c.isLower) :
    Simulates limit? limit (trails.application inner) trail
      (Expression.application r trail.cursor) := by
  have hshorter : (trail.cursor.skipWhile Char.isLower).rest.length < trail.cursor.rest.length := by
    have hle := (List.dropWhile_sublist (p := Char.isLower) (l := rest)).length_le
    rw [Cursor.skipWhile, Cursor.after, hcur, List.dropWhile_cons_of_pos hc, List.length_cons]
    exact Nat.lt_succ_of_le hle
  refine Simulates.of_goTo
    (b := if trail.cursor.rest.takeWhile Char.isLower = "sqrt".toList then
        return (← inner).sqrt
      else throw (.unknownFunction (trail.cursor.rest.takeWhile Char.isLower)))
    (trail.cursor.skipWhile Char.isLower) ?_ hshorter.le rfl
  unfold Expression.application
  dsimp only
  split
  · refine operand_simulates hr hdepth (hshorter.trans_le hbound) Float.sqrt ?_
    cases r (trail.cursor.skipWhile Char.isLower) <;> rfl
  · exact simulates_throw fun _ _ h => by cases h

theorem atom_simulates (hfuel : bound ≤ fuel)
    (hr : SimulatesBelow limit? limit bound depth inner r)
    (hdepth : trail.depth = depth) (hbound : trail.cursor.rest.length ≤ bound)
    (hblank : trail.cursor.skipBlank = trail.cursor) :
    Simulates limit? limit (trails.atom fuel inner) trail (Expression.atom r trail.cursor) := by
  -- without a parenthesis, the next character decides
  have helse : trail.cursor.rest.head? ≠ some '(' → ∀ {answer},
      Simulates limit? limit
        (if trail.cursor.rest.head?.any Expression.isLiteralChar then trails.number
        else if trail.cursor.rest.head?.any Char.isLower then trails.application inner
        else trails.unexpected) trail answer →
      Simulates limit? limit (trails.atom fuel inner) trail answer := by
    intro hnext answer h
    rw [← hblank] at hnext
    refine Simulates.of_no_token hnext ?_
    rw [hblank]
    exact h.of_goTo trail.cursor le_rfl rfl
  unfold Expression.atom
  cases hcur : trail.cursor.rest with
  | nil =>
    refine helse (head?_ne_of_nil hcur _) ?_
    rw [hcur]
    exact simulates_unexpected
  | cons c rest =>
    dsimp only
    by_cases hopen : c = '('
    · subst hopen
      have hnext : trail.cursor.skipBlank.rest = '(' :: rest := by rw [hblank, hcur]
      rw [if_pos rfl]
      refine Simulates.of_token hnext ?_
      rw [hblank]
      exact group_simulates hfuel hr (trail.goTo (trail.cursor.after ['('] rest)) hdepth
        ((length_lt_of_token hnext).trans_le hbound)
    · refine helse (head?_ne_of_cons hcur hopen) ?_
      rw [hcur, List.head?_cons, Option.any_some, Option.any_some, if_neg hopen]
      split
      · rename_i hliteral
        exact number_simulates hcur hliteral
      · split
        · rename_i hlower
          exact application_simulates hr hdepth hbound hcur hlower
        · exact simulates_unexpected

theorem power_simulates (hr : SimulatesBelow limit? limit bound depth inner r)
    (hdepth : trail.depth = depth) (hbound : trail.cursor.rest.length ≤ bound) (base : Float) :
    Simulates limit? limit (trails.power inner base) trail
      (Expression.power r base trail.cursor) := by
  unfold Expression.power
  dsimp only
  split
  · rename_i rest hnext
    refine Simulates.of_token hnext ?_
    refine operand_simulates hr hdepth ((length_lt_of_token hnext).trans_le hbound) base.pow ?_
    cases r (trail.cursor.skipBlank.after ['^'] rest) <;> rfl
  · rename_i hother
    exact (simulates_pure base).of_no_token (head?_ne hother)

theorem percent_simulates (value : Float) :
    Simulates limit? limit (trails.percent value) trail
      (.ok (Expression.percent value trail.cursor)) := by
  unfold Expression.percent
  dsimp only
  split
  · rename_i rest hnext
    exact (simulates_pure (value / 100)).of_token hnext
  · rename_i hother
    exact (simulates_pure value).of_no_token (head?_ne hother)

/-- What a factor without a sign is. -/
theorem unsigned_simulates (hfuel : bound ≤ fuel)
    (hr : SimulatesBelow limit? limit bound depth inner r)
    (hdepth : trail.depth = depth) (hbound : trail.cursor.rest.length ≤ bound)
    (hblank : trail.cursor.skipBlank = trail.cursor) :
    Simulates limit? limit
      (trails.atom fuel inner >>= fun base => trails.power inner base >>= trails.percent) trail
      (Expression.unsigned r trail.cursor) := by
  refine (atom_simulates hfuel hr hdepth hbound hblank).bind
    (f := fun base behind =>
      (Expression.power r base behind).map fun x => Expression.percent x.1 x.2) ?_
    fun base mid hmid hle => ?_
  · unfold Expression.unsigned
    cases Expression.atom r trail.cursor with
    | error e => rfl
    | ok x =>
      dsimp only [Except.bind]
      cases Expression.power r x.1 x.2 <;> rfl
  · refine (power_simulates hr (hmid.trans hdepth) (hle.trans hbound) base).bind
      (f := fun raised behind => .ok (Expression.percent raised behind)) ?_
      fun raised last _ _ => percent_simulates raised
    cases Expression.power r base mid.cursor <;> rfl

/-- A factor that has been entered. -/
theorem level_simulates (hfuel : bound ≤ fuel)
    (hr : SimulatesBelow limit? limit bound depth inner r) (hdepth : trail.depth = depth)
    (hbound : trail.cursor.rest.length ≤ bound) :
    Simulates limit? limit (trails.level fuel inner) trail (Expression.level r trail.cursor) := by
  have hagain := skipBlank_skipBlank trail.cursor
  have hlength := length_skipBlank_le trail.cursor
  unfold Expression.level
  dsimp only
  split
  · rename_i rest hnext
    have hfactor := hr (trail.goTo (trail.cursor.skipBlank.after ['+'] rest)) hdepth
      ((length_lt_of_token hnext).trans_le hbound)
    exact hfactor.of_token hnext
  · rename_i rest hnext
    have hminus : (trail.goTo trail.cursor.skipBlank).cursor.skipBlank.rest = '-' :: rest := by
      rw [Trail.cursor_goTo, hagain, hnext]
    refine Simulates.of_no_token (head?_ne_of_cons hnext (by decide)) ?_
    refine Simulates.of_token hminus ?_
    refine operand_simulates hr hdepth ((length_lt_of_token hnext).trans_le hbound) (-·) ?_
    rw [Trail.cursor_goTo, hagain]
    cases r (trail.cursor.skipBlank.after ['-'] rest) <;> rfl
  · rename_i hplus hminus
    have hminus' : (trail.goTo trail.cursor.skipBlank).cursor.skipBlank.rest.head? ≠ some '-' := by
      rw [Trail.cursor_goTo, hagain]
      exact head?_ne hminus
    refine Simulates.of_no_token (head?_ne hplus) (Simulates.of_no_token hminus' ?_)
    rw [Trail.cursor_goTo, hagain, Trail.goTo_goTo]
    exact unsigned_simulates hfuel hr hdepth (hlength.trans hbound) hagain

/-! ### Factors -/

/-- A factor that the limit does not allow is not entered. -/
theorem answer?_factor_of_le (hdepth : limit ≤ trail.depth) :
    (factor (some limit) (fuel + 1)).answer? trail =
      some (.error (.nestedTooDeep trail.cursor.position limit), trail) := by
  have hcheck : (trails.checkDepth (some limit)).answer? trail =
      some (.error (.nestedTooDeep trail.cursor.position limit), trail) := by
    unfold Scanner.checkDepth
    rw [answer?_look_bind, answer?_look_bind]
    exact congrArg (Reading.answer? · trail) (if_pos hdepth)
  rw [factor, Scanner.factor, answer?_bind_error hcheck]

/-- A factor that the limit allows is entered and left. -/
theorem answer?_factor (hdepth : ∀ n, limit? = some n → trail.depth < n) :
    (factor limit? (fuel + 1)).answer? trail =
      ((trails.level fuel (factor limit? fuel)).answer? trail.enter).map
        fun inside => (inside.1, inside.2.leave) := by
  have hcheck : (trails.checkDepth limit?).answer? trail = some (.ok (), trail) := by
    unfold Scanner.checkDepth
    rw [answer?_look_bind, answer?_look_bind]
    cases limit? with
    | none => rfl
    | some n => exact congrArg (Reading.answer? · trail) (if_neg (hdepth n rfl).not_ge)
  rw [factor, Scanner.factor, answer?_bind_ok hcheck, Scanner.answer?_counted]
  rfl

/-- If what is read in a factor goes with a level, the factor goes with a factor that has one level
more. -/
theorem Follows.leave {last : Trail} {outcome : Except EvalError Float}
    (h : Follows limit? limit trail.enter last outcome
      (Expression.level (Expression.factor limit (limit - (trail.depth + 1))) trail.cursor))
    (hdepth : limit? = some limit → trail.depth < limit) :
    Follows limit? limit trail last.leave outcome
      (Expression.factor limit (limit - trail.depth) trail.cursor) := by
  have hdeep : trail.tooDeep? limit = none → limit ≤ trail.depth →
      last.tooDeep? limit = some ⟨trail.depth + 1, trail.cursor⟩ := fun hnone hle =>
    tooDeep?_mono h.entered (by rw [tooDeep?_enter hnone, if_pos hle])
  have hnot : trail.tooDeep? limit = none → ¬ limit ≤ trail.depth →
      trail.enter.tooDeep? limit = none := fun hnone hlt => by
    rw [tooDeep?_enter hnone, if_neg hlt]
  refine
    { depth_eq := ?_
      length_le := h.length_le
      entered := (List.prefix_append _ _).trans h.entered
      guarded := fun hlimit hnone => h.guarded hlimit (hnot hnone (hdepth hlimit).not_ge)
      reports := h.reports
      active_eq := fun hle hnone entry he => ?_
      answer_eq := fun hle hnone => ?_ }
  · have hlast : last.depth = trail.depth + 1 := h.depth_eq
    rw [Trail.leave, hlast, Nat.add_sub_cancel]
  -- either the factor itself is the first that is too deep, or it is not too deep
  · by_cases hlimit : limit ≤ trail.depth
    · obtain rfl := Option.some.inj ((hdeep hnone hlimit).symm.trans he)
      exact congrArg (· + 1) (hle.antisymm hlimit)
    · exact h.active_eq (Nat.lt_of_not_le hlimit) (hnot hnone hlimit) entry he
  · by_cases hlimit : limit ≤ trail.depth
    · rw [Nat.sub_eq_zero_of_le hlimit]
      exact (limited_of_some (hdeep hnone hlimit)).symm
    · have hlevels : limit - trail.depth = limit - (trail.depth + 1) + 1 := by omega
      rw [hlevels]
      exact h.answer_eq (Nat.lt_of_not_le hlimit) (hnot hnone hlimit)

/-- The fuel is enough where fewer characters than that are left. -/
theorem factor_simulates (hlimit : ∀ n, limit? = some n → n = limit) (fuel depth : Nat) :
    SimulatesBelow limit? limit fuel depth (factor limit? fuel)
      (Expression.factor limit (limit - depth)) := by
  induction fuel generalizing depth with
  | zero => exact fun trail _ hbound => absurd hbound (Nat.not_lt_zero _)
  | succ fuel ih =>
    rintro trail rfl hbound
    by_cases hguard : limit? = some limit ∧ limit ≤ trail.depth
    · obtain ⟨rfl, hdepth⟩ := hguard
      have hthrow : (factor (some limit) (fuel + 1)).answer? trail =
          some (.error (.nestedTooDeep trail.cursor.position limit), trail) :=
        answer?_factor_of_le hdepth
      rw [Nat.sub_eq_zero_of_le hdepth]
      refine (simulates_throw fun position n he => ?_).of_goTo trail.cursor le_rfl hthrow
      cases he
      rfl
    · have hdepth : ∀ n, limit? = some n → trail.depth < n := fun n hn => by
        obtain rfl := hlimit n hn
        exact Nat.lt_of_not_le fun hle => hguard ⟨hn, hle⟩
      -- inside the factor others are entered behind a token, so fewer characters are left there
      have hlevel : Simulates limit? limit (trails.level fuel (factor limit? fuel)) trail.enter
          (Expression.level (Expression.factor limit (limit - (trail.depth + 1))) trail.cursor) :=
        level_simulates le_rfl (ih (trail.depth + 1)) rfl (Nat.le_of_lt_succ hbound)
      obtain ⟨outcome, last, hrun, hfollows⟩ := hlevel
      refine ⟨outcome, last.leave, ?_, hfollows.leave (hdepth limit)⟩
      rw [answer?_factor hdepth, hrun]
      rfl

/-- Whatever the limit, a factor ends and leaves the counter as it was. -/
theorem depth_factor (limit? : Option Nat) (trail : Trail) :
    ∃ answer last, last.depth = trail.depth ∧ ∀ fuel, trail.cursor.rest.length < fuel →
      (factor limit? fuel).answer? trail = some (answer, last) := by
  have hlimit : ∀ n, limit? = some n → n = limit?.getD 0 := by
    rintro n rfl
    rfl
  obtain ⟨answer, last, hrun, hfollows⟩ := factor_simulates hlimit (trail.cursor.rest.length + 1)
    trail.depth trail rfl (Nat.lt_succ_self _)
  refine ⟨answer, last, hfollows.depth_eq, fun fuel hfuel => ?_⟩
  exact factor_extends hrun hfuel

/-! ### Whole texts -/

theorem map_limited {α β : Type} (f : α → β) (answer : Except EvalError α) :
    (trail.limited limit answer).map f = trail.limited limit (answer.map f) := by
  unfold Trail.limited
  split <;> rfl

theorem whole_simulates (hlimit : ∀ n, limit? = some n → n = limit) {t : Text}
    (hfuel : t.length < fuel) :
    ∃ answer, Simulates limit? limit (trails.whole limit? fuel) (.start t) answer ∧
      Expression.evaluateWithin limit t = answer.map Prod.fst := by
  have hsum := sum_simulates le_rfl (factor_simulates hlimit fuel 0) (.start t) rfl hfuel
  refine ⟨_, hsum.bind
    (f := fun value behind =>
      if behind.skipBlank.rest.isEmpty then .ok (value, behind.skipBlank)
      else .error behind.skipBlank.unexpected) rfl fun value last _ _ => ?_, ?_⟩
  · refine Simulates.of_goTo
      (b := if last.cursor.skipBlank.rest.head?.isSome then trails.unexpected else pure value)
      last.cursor.skipBlank ?_ (length_skipBlank_le _) rfl
    cases hrest : last.cursor.skipBlank.rest with
    | nil => exact simulates_pure value
    | cons c rest => exact simulates_unexpected
  · unfold Expression.evaluateWithin
    dsimp only [Nat.sub_zero, Trail.start]
    cases Expression.sum (Expression.factor limit limit) (Cursor.start t) with
    | error e => rfl
    | ok x =>
      dsimp only [Except.bind]
      split <;> rfl

/-- The descent for a text, and the value of the expression. -/
theorem descend_follows (hlimit : ∀ n, limit? = some n → n = limit) (t : Text) :
    ∃ outcome last answer,
      (∀ fuel, t.length < fuel → descend limit? fuel t = some (outcome, last)) ∧
      Follows limit? limit (.start t) last outcome answer ∧
      Expression.evaluateWithin limit t = last.limited limit outcome := by
  obtain ⟨answer, ⟨outcome, last, hrun, hfollows⟩, hevaluate⟩ :=
    whole_simulates hlimit (Nat.lt_succ_self t.length)
  refine ⟨outcome, last, answer, fun fuel hfuel => descend_extends hrun hfuel, hfollows, ?_⟩
  rw [hevaluate, hfollows.answer_eq (Nat.zero_le _) rfl, map_limited]
  cases outcome <;> rfl

/-- With the limit, the answer is the value of the expression. -/
theorem descend_nestingLimit (t : Text) : ∃ guarded, guarded.depth = 0 ∧
    ∀ fuel, t.length < fuel → descend (some nestingLimit) fuel t = some (evaluate t, guarded) := by
  have hlimit : ∀ n, some nestingLimit = some n → n = nestingLimit := fun _ h =>
    (Option.some.inj h).symm
  obtain ⟨outcome, guarded, _, hrun, hfollows, hevaluate⟩ := descend_follows hlimit t
  have houtcome : evaluate t = outcome :=
    hevaluate.trans (limited_of_none (hfollows.guarded rfl rfl))
  exact ⟨guarded, hfollows.depth_eq, houtcome ▸ hrun⟩

end Grammar

end Descent

open Descent

/-- The nesting limit is transparent. With any limit and without one, every factor ends and leaves
the counter as it was. The descent ends for every text: with the limit, its answer is the value of
the expression; without, its answer is no error about nesting. The value is the answer without the
limit if no factor is entered inside `nestingLimit` others. Otherwise the first factor that is, is
entered inside of just so many, and the expression is nested too deep at its place. -/
theorem nestingLimit_transparent :
    (∀ limit? trail, ∃ answer last, last.depth = trail.depth ∧
      ∀ fuel, trail.cursor.rest.length < fuel →
        (factor limit? fuel).answer? trail = some (answer, last)) ∧
    ∀ t, ∃ answer free guarded,
      (∀ fuel, t.length < fuel → descend none fuel t = some (answer, free)) ∧
      (∀ fuel, t.length < fuel →
        descend (some nestingLimit) fuel t = some (evaluate t, guarded)) ∧
      free.depth = 0 ∧ guarded.depth = 0 ∧
      (∀ position limit, answer ≠ .error (.nestedTooDeep position limit)) ∧
      ((∀ entry ∈ free.entered, entry.active ≤ nestingLimit) → evaluate t = answer) ∧
      ∀ before entry after, free.entered = before ++ entry :: after →
        (∀ e ∈ before, e.active ≤ nestingLimit) → nestingLimit < entry.active →
        entry.active = nestingLimit + 1 ∧
          evaluate t = .error (.nestedTooDeep entry.place.position nestingLimit) := by
  refine ⟨depth_factor, fun t => ?_⟩
  have hnone : ∀ n, (none : Option Nat) = some n → n = nestingLimit := fun _ h => by cases h
  obtain ⟨answer, free, _, hfree, hfollows, hevaluate⟩ := descend_follows hnone t
  obtain ⟨guarded, hguarded_depth, hguarded⟩ := descend_nestingLimit t
  refine ⟨answer, free, guarded, hfree, hguarded, hfollows.depth_eq, hguarded_depth,
    fun position limit he => ?_, fun hall => ?_, fun before entry after hsplit hbefore hdeep => ?_⟩
  · cases hfollows.reports position limit he
  · refine hevaluate.trans (limited_of_none (List.find?_eq_none.2 fun entry hentry => ?_))
    simpa using hall entry hentry
  · have hfirst : free.tooDeep? nestingLimit = some entry :=
      List.find?_eq_some_iff_append.2 ⟨by simpa using hdeep, before, after, hsplit, fun e he => by
        simpa using hbefore e he⟩
    exact ⟨hfollows.active_eq (Nat.zero_le _) rfl entry hfirst,
      hevaluate.trans (limited_of_some hfirst)⟩

/-- With a sign too many, a factor is entered too deep. -/
theorem nestingLimit_transparent_signs :
    let t := List.replicate 257 '-' ++ ['1']
    evaluate t = .error (.nestedTooDeep 256 nestingLimit) ∧
      ∃ answer free, (∀ fuel, t.length < fuel → descend none fuel t = some (answer, free)) ∧
        ∃ entry ∈ free.entered, nestingLimit < entry.active := by
  intro t
  have hvalue : evaluate t = .error (.nestedTooDeep 256 nestingLimit) := by decide +kernel
  obtain ⟨answer, free, _, hfree, _, _, _, hanswer, hshallow, _⟩ := nestingLimit_transparent.2 t
  refine ⟨hvalue, answer, free, hfree, ?_⟩
  by_contra hnone
  push Not at hnone
  exact hanswer 256 nestingLimit ((hshallow hnone).symm.trans hvalue)

end PocketCalculator
