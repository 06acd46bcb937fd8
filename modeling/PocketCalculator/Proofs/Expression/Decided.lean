import PocketCalculator.Proofs.Expression.Places
import PocketCalculator.Proofs.Text.Runs

/-!
# Errors are decided by what has been read

A reader that gives up before the end of its text has not looked behind the place where it gives up,
so it gives up in the same way when more text follows (`Decides`); only a literal and a name look
for their own end. The same holds of a value that is read before the end. A value that ends with the
text may be another one when more follows, but from there on nothing goes wrong before the end.
-/

namespace PocketCalculator

/-- Whether an error is no missing part at the end of the text. -/
def EvalError.BeforeEnd (e : EvalError) : Prop := ∀ position, e ≠ .unexpected position none

namespace Cursor

variable {more : Text} {cur : Cursor} {p : Char → Bool}

/-- The same place, with more text behind the end. -/
def followedBy (more : Text) (cur : Cursor) : Cursor :=
  ⟨cur.position, cur.rest ++ more⟩

theorem followedBy_after (more : Text) (cur : Cursor) (piece rest : Text) :
    (cur.followedBy more).after piece (rest ++ more) = (cur.after piece rest).followedBy more := rfl

/-- A run is over before the end, or else the text behind the end does not go on with it. -/
theorem skipWhile_followedBy (cur : Cursor) (h : (cur.skipWhile p).rest ≠ [] ∨ StopsAt p more) :
    (cur.followedBy more).rest.takeWhile p = cur.rest.takeWhile p ∧
      (cur.followedBy more).skipWhile p = (cur.skipWhile p).followedBy more := by
  obtain ⟨htake, hdrop⟩ := takeWhile_dropWhile_append h
  refine ⟨htake, ?_⟩
  rw [skipWhile, followedBy, htake, hdrop]
  rfl

theorem skipBlank_followedBy (more : Text) {c : Char} {rest : Text}
    (h : cur.skipBlank.rest = c :: rest) :
    (cur.followedBy more).skipBlank = cur.skipBlank.followedBy more ∧
      (cur.followedBy more).skipBlank.rest = c :: (rest ++ more) := by
  have hskip : (cur.followedBy more).skipBlank = cur.skipBlank.followedBy more := by
    refine (skipWhile_followedBy _ (Or.inl ?_)).2
    exact h ▸ List.cons_ne_nil c rest
  refine ⟨hskip, ?_⟩
  rw [hskip, followedBy, h]
  rfl

theorem ne_nil_of_skipBlank {c : Char} {rest : Text} (h : cur.skipBlank.rest = c :: rest) :
    cur.rest ≠ [] := by
  rintro hnil
  simp [skipBlank, skipWhile, after, hnil] at h

theorem skipBlank_rest_eq_nil (h : cur.rest = []) : cur.skipBlank.rest = [] := by
  simp [skipBlank, skipWhile, after, h]

/-- Another token is another one with more text behind it. -/
theorem not_token_append {c d : Char} {rest tail : Text}
    (h : ∀ tail, c :: rest = d :: tail → False) : c :: (rest ++ more) = d :: tail → False :=
  fun e => h rest (congrArg (· :: rest) (List.cons.inj e).1)

theorem unexpected_followedBy {c : Char} {rest : Text} (h : cur.rest = c :: rest) (more : Text) :
    (cur.followedBy more).unexpected = cur.unexpected := by
  simp [unexpected, followedBy, h]

end Cursor

open Cursor

theorem not_beforeEnd_unexpected {cur : Cursor} (h : cur.rest = []) :
    ¬ cur.unexpected.BeforeEnd := by
  intro hend
  refine hend cur.position ?_
  rw [unexpected, h]
  rfl

namespace Expression

variable {more : Text}

/-- Whether an answer stays as it is when more text follows: an error before the end, and a value
before the end. -/
def Persists (more : Text) (answer answer' : Except EvalError (Float × Cursor)) : Prop :=
  match answer with
  | .ok (value, behind) => behind.rest ≠ [] → answer' = .ok (value, behind.followedBy more)
  | .error e => e.BeforeEnd → answer' = .error e

/-- Whether all answers of a reader stay as they are when more text follows. -/
def Decides (more : Text) (r : Reader) : Prop :=
  ∀ cur, Persists more (r cur) (r (cur.followedBy more))

theorem Decides.error {r : Reader} (hr : Decides more r) {cur : Cursor} {e : EvalError}
    (h : r cur = .error e) (he : e.BeforeEnd) : r (cur.followedBy more) = .error e := by
  have hpersists := hr cur
  rw [h] at hpersists
  exact hpersists he

theorem Decides.ok {r : Reader} (hr : Decides more r) {cur behind : Cursor} {value : Float}
    (h : r cur = .ok (value, behind)) (hne : behind.rest ≠ []) :
    r (cur.followedBy more) = .ok (value, behind.followedBy more) := by
  have hpersists := hr cur
  rw [h] at hpersists
  exact hpersists hne

theorem persists_end {answer : Except EvalError (Float × Cursor)} {value : Float}
    {behind : Cursor} (h : behind.rest = []) : Persists more (.ok (value, behind)) answer :=
  fun hne => absurd h hne

theorem persists_missing {answer : Except EvalError (Float × Cursor)} {cur : Cursor}
    (h : cur.rest = []) : Persists more (.error cur.unexpected) answer :=
  fun hend => absurd hend (not_beforeEnd_unexpected h)

section Readers

variable {r factor : Reader} {operator? : Char → Option (Float → Float → Float)} {cur : Cursor}

/-! ### Sums and products -/

/-- At the end of the text the operands end. -/
theorem chain_of_rest_eq_nil (operator? : Char → Option (Float → Float → Float)) (r : Reader)
    (h : cur.rest = []) (count : Nat) (value : Float) :
    ∃ behind, chain operator? r count value cur = .ok (value, behind) ∧ behind.rest = [] := by
  cases count with
  | zero => exact ⟨cur, rfl, h⟩
  | succ count =>
    have hnext := skipBlank_rest_eq_nil h
    refine ⟨cur.skipBlank, ?_, hnext⟩
    unfold chain
    dsimp only
    rw [hnext]

/-- With more text there may be more operators, but none before the end of the first text. -/
theorem chain_persists (hr : Decides more r) (ha : Advances r) {count count' : Nat}
    (hcount : cur.rest.length ≤ count) (hle : count ≤ count') (value : Float) :
    Persists more (chain operator? r count value cur)
      (chain operator? r count' value (cur.followedBy more)) := by
  induction count generalizing cur count' value with
  | zero => exact persists_end (List.length_eq_zero_iff.1 (Nat.le_zero.1 hcount))
  | succ count ih =>
    obtain ⟨count', rfl⟩ : ∃ n, count' = n + 1 := ⟨count' - 1, by omega⟩
    unfold chain
    dsimp only
    cases hnext : cur.skipBlank.rest with
    | nil => exact persists_end hnext
    | cons c rest =>
      obtain ⟨hskip, hnext'⟩ := skipBlank_followedBy more hnext
      rw [hnext', hskip]
      dsimp only
      cases operator? c with
      | none => exact fun _ => rfl
      | some combine =>
        dsimp only
        rw [followedBy_after]
        cases hread : r (cur.skipBlank.after [c] rest) with
        | error e =>
          intro he
          rw [hr.error hread he]
        | ok answer =>
          obtain ⟨right, behind⟩ := answer
          dsimp only
          by_cases hend : behind.rest = []
          · obtain ⟨last, hlast, hnil⟩ :=
              chain_of_rest_eq_nil operator? r hend count (combine value right)
            rw [hlast]
            exact persists_end hnil
          · have hlength : behind.rest.length < cur.rest.length := by
              have hshorter := (ha.reaches hread).length_le
              have hlonger := (reaches_skipBlank cur).length_le
              rw [hnext, List.length_cons] at hlonger
              dsimp only [after] at hshorter
              omega
            rw [hr.ok hread hend]
            exact ih (by omega) (by omega) _

theorem operands_decides (hr : Decides more r) (ha : Advances r) :
    Decides more (operands operator? r) := by
  intro cur
  unfold operands
  cases hread : r cur with
  | error e =>
    intro he
    rw [hr.error hread he]
  | ok answer =>
    obtain ⟨first, behind⟩ := answer
    dsimp only
    by_cases hend : behind.rest = []
    · obtain ⟨last, hlast, hnil⟩ :=
        chain_of_rest_eq_nil operator? r hend behind.rest.length first
      rw [hlast]
      exact persists_end hnil
    · rw [hr.ok hread hend]
      exact chain_persists hr ha le_rfl (by simp [followedBy]) first

theorem sum_decides (hr : Decides more factor) (ha : Advances factor) :
    Decides more (sum factor) :=
  operands_decides (operands_decides hr ha) (operands_advances ha)

/-! ### Atoms -/

theorem literal_persists (hmore : StopsAt isLiteralChar more) {c : Char} {rest : Text}
    (hcur : cur.rest = c :: rest) :
    Persists more (literal cur) (literal (cur.followedBy more)) := by
  obtain ⟨htake, hskip⟩ := skipWhile_followedBy cur (Or.inr hmore)
  unfold literal
  rw [htake, hskip, unexpected_followedBy hcur]
  cases Decimal.ofLiteral? (cur.rest.takeWhile isLiteralChar) with
  | none => exact fun _ => rfl
  | some x =>
    dsimp only
    cases x.toFloat? with
    | none => exact fun _ => rfl
    | some value => exact fun _ => rfl

theorem application_decides (hmore : StopsAt Char.isLower more) (hr : Decides more factor) :
    Decides more (application factor) := by
  intro cur
  obtain ⟨htake, hskip⟩ := skipWhile_followedBy cur (Or.inr hmore)
  unfold application
  rw [htake, hskip]
  dsimp only
  split
  · cases hread : factor (cur.skipWhile Char.isLower) with
    | error e =>
      intro he
      rw [hr.error hread he]
    | ok answer =>
      intro hne
      rw [hr.ok hread hne]
  · exact fun _ => rfl

theorem group_decides (hr : Decides more factor) (ha : Advances factor) :
    Decides more (group factor) := by
  intro cur
  have hsum := sum_decides hr ha
  unfold group
  cases hread : sum factor cur with
  | error e =>
    intro he
    rw [hsum.error hread he]
  | ok answer =>
    obtain ⟨value, behind⟩ := answer
    dsimp only
    cases hclose : behind.skipBlank.rest with
    | nil => exact persists_missing hclose
    | cons c rest =>
      obtain ⟨hskip, hclose'⟩ := skipBlank_followedBy more hclose
      rw [hsum.ok hread (ne_nil_of_skipBlank hclose)]
      dsimp only
      rw [hclose', hskip, unexpected_followedBy hclose]
      split
      · rename_i tail htail
        cases htail
        exact fun _ => rfl
      · rename_i hother
        split
        · rename_i tail htail
          exact (not_token_append hother htail).elim
        · exact fun _ => rfl

/-- An atom is looked for where something stands. -/
theorem atom_decides (hliteral : StopsAt isLiteralChar more) (hname : StopsAt Char.isLower more)
    (hr : Decides more factor) (ha : Advances factor) : Decides more (atom factor) := by
  intro cur
  unfold atom
  cases hcur : cur.rest with
  | nil => exact persists_missing hcur
  | cons c rest =>
    have hcur' : (cur.followedBy more).rest = c :: (rest ++ more) := by
      rw [followedBy, hcur]
      rfl
    rw [hcur', unexpected_followedBy hcur]
    dsimp only
    split
    · exact group_decides hr ha (cur.after [c] rest)
    · split
      · exact literal_persists hliteral hcur
      · split
        · exact application_decides hname hr cur
        · exact fun _ => rfl

/-! ### Factors -/

theorem power_decides (hr : Decides more factor) (value : Float) :
    Decides more (power factor value) := by
  intro cur
  unfold power
  dsimp only
  cases hnext : cur.skipBlank.rest with
  | nil => exact persists_end hnext
  | cons c rest =>
    obtain ⟨hskip, hnext'⟩ := skipBlank_followedBy more hnext
    rw [hnext', hskip]
    split
    · rename_i tail htail
      cases htail
      cases hread : factor (cur.skipBlank.after ['^'] rest) with
      | error e =>
        intro he
        simp only [followedBy_after, hr.error hread he]
      | ok answer =>
        intro hne
        simp only [followedBy_after, hr.ok hread hne]
    · rename_i hother
      split
      · rename_i tail htail
        exact (not_token_append hother htail).elim
      · exact fun _ => rfl

theorem percent_persists (value : Float) (cur : Cursor) :
    Persists more (.ok (percent value cur)) (.ok (percent value (cur.followedBy more))) := by
  unfold percent
  dsimp only
  cases hnext : cur.skipBlank.rest with
  | nil => exact persists_end hnext
  | cons c rest =>
    obtain ⟨hskip, hnext'⟩ := skipBlank_followedBy more hnext
    rw [hnext', hskip]
    split
    · rename_i tail htail
      cases htail
      exact fun _ => rfl
    · rename_i hother
      split
      · rename_i tail htail
        exact (not_token_append hother htail).elim
      · exact fun _ => rfl

theorem rest_percent_of_rest_eq_nil (h : cur.rest = []) (value : Float) :
    (percent value cur).2.rest = [] := by
  have hnext := skipBlank_rest_eq_nil h
  unfold percent
  dsimp only
  rw [hnext]
  exact hnext

/-- A factor without sign: an atom, the power that follows it, and the percent sign. -/
def unsigned (factor : Reader) : Reader := fun cur =>
  match atom factor cur with
  | .error e => .error e
  | .ok (value, behind) =>
    match power factor value behind with
    | .error e => .error e
    | .ok (value, behind) => .ok (percent value behind)

theorem level_eq (factor : Reader) (cur : Cursor) :
    level factor cur =
      match cur.skipBlank.rest with
      | '+' :: rest => factor (cur.skipBlank.after ['+'] rest)
      | '-' :: rest =>
        match factor (cur.skipBlank.after ['-'] rest) with
        | .error e => .error e
        | .ok (value, behind) => .ok (-value, behind)
      | _ => unsigned factor cur.skipBlank := rfl

theorem unsigned_decides (hliteral : StopsAt isLiteralChar more)
    (hname : StopsAt Char.isLower more) (hr : Decides more factor) (ha : Advances factor) :
    Decides more (unsigned factor) := by
  intro cur
  have hatom := atom_decides hliteral hname hr ha
  unfold unsigned
  cases hread : atom factor cur with
  | error e =>
    intro he
    rw [hatom.error hread he]
  | ok answer =>
    obtain ⟨value, behind⟩ := answer
    dsimp only
    by_cases hend : behind.rest = []
    · -- no `^` and no percent sign can stand there
      have hpower : power factor value behind = .ok (value, behind.skipBlank) := by
        unfold power
        dsimp only
        rw [skipBlank_rest_eq_nil hend]
      rw [hpower]
      exact persists_end (rest_percent_of_rest_eq_nil (skipBlank_rest_eq_nil hend) value)
    · rw [hatom.ok hread hend]
      dsimp only
      have hpower := power_decides hr value
      cases hraised : power factor value behind with
      | error e =>
        intro he
        rw [hpower.error hraised he]
      | ok answer =>
        obtain ⟨raised, last⟩ := answer
        dsimp only
        by_cases hend : last.rest = []
        · exact persists_end (rest_percent_of_rest_eq_nil hend raised)
        · rw [hpower.ok hraised hend]
          exact percent_persists raised last

theorem level_decides (hliteral : StopsAt isLiteralChar more) (hname : StopsAt Char.isLower more)
    (hr : Decides more factor) (ha : Advances factor) : Decides more (level factor) := by
  intro cur
  have hplain := unsigned_decides hliteral hname hr ha cur.skipBlank
  rw [level_eq, level_eq]
  cases hnext : cur.skipBlank.rest with
  | nil =>
    have hatom : unsigned factor cur.skipBlank = .error cur.skipBlank.unexpected := by
      unfold unsigned atom
      rw [hnext]
    dsimp only
    rw [hatom]
    exact persists_missing hnext
  | cons c rest =>
    obtain ⟨hskip, hnext'⟩ := skipBlank_followedBy more hnext
    rw [hnext', hskip]
    split
    · rename_i tail htail
      cases htail
      exact hr (cur.skipBlank.after ['+'] rest)
    · rename_i tail htail
      cases htail
      cases hread : factor (cur.skipBlank.after ['-'] rest) with
      | error e =>
        intro he
        simp only [followedBy_after, hr.error hread he]
      | ok answer =>
        intro hne
        simp only [followedBy_after, hr.ok hread hne]
    · rename_i hplus hminus
      split
      · rename_i tail htail
        exact (not_token_append hplus htail).elim
      · rename_i tail htail
        exact (not_token_append hminus htail).elim
      · exact hplain

end Readers

theorem factor_decides (hliteral : StopsAt isLiteralChar more) (hname : StopsAt Char.isLower more)
    (limit n : Nat) : Decides more (factor limit n) := by
  induction n with
  | zero => exact fun cur _ => rfl
  | succ n ih => exact level_decides hliteral hname ih (factor_advances limit n)

/-- An error before the end is that of every longer text that does not go on with the last literal
or name. -/
theorem evaluateWithin_append {n : Nat} {t : Text} {e : EvalError}
    (hliteral : StopsAt isLiteralChar more) (hname : StopsAt Char.isLower more)
    (h : evaluateWithin n t = .error e) (he : e.BeforeEnd) :
    evaluateWithin n (t ++ more) = .error e := by
  have hsum := sum_decides (factor_decides hliteral hname n n) (factor_advances n n)
  have hstart : Cursor.start (t ++ more) = (Cursor.start t).followedBy more := rfl
  unfold evaluateWithin at h ⊢
  rw [hstart]
  split at h
  · rename_i hread
    cases h
    rw [hsum.error hread he]
  · rename_i value behind hread
    dsimp only at h
    cases hnext : behind.skipBlank.rest with
    | nil =>
      rw [hnext] at h
      cases h
    | cons c rest =>
      obtain ⟨hskip, hnext'⟩ := skipBlank_followedBy more hnext
      rw [hnext] at h
      rw [hsum.ok hread (ne_nil_of_skipBlank hnext)]
      dsimp only
      rw [hnext', hskip, unexpected_followedBy hnext]
      exact h

end Expression

open Expression

/-- An error other than a missing part at the end of a text is decided by that text: it is the error
of every text that starts so, with the same position, character, name or limit, if the literal or
name that may stand at the end does not go on. -/
theorem evaluate_append_of_error {t more : Text} {e : EvalError} (h : evaluate t = .error e)
    (he : ∀ position, e ≠ .unexpected position none)
    (hmore : ∀ c, more.head? = some c → ¬ (c.isDigit ∨ c = '.' ∨ c.isLower)) :
    evaluate (t ++ more) = .error e := by
  refine evaluateWithin_append (fun c hc => ?_) (fun c hc => ?_) h he
  · have hnot := hmore c hc
    simp only [not_or] at hnot
    simp [isLiteralChar, hnot]
  · have hnot := hmore c hc
    simp only [not_or] at hnot
    simpa using hnot.2.2

/-- A name that is no function at the end of a text, and more behind it. -/
theorem evaluate_append_of_error_name :
    let t := "2*(sqrt 4 + cos".toList
    let more := "(0))^2".toList
    evaluate t = .error (.unknownFunction "cos".toList) ∧
      evaluate (t ++ more) = .error (.unknownFunction "cos".toList) := by
  intro t more
  have herror : evaluate t = .error (.unknownFunction "cos".toList) := by decide +kernel
  have hmore : ∀ c, more.head? = some c → ¬ (c.isDigit ∨ c = '.' ∨ c.isLower) := by
    intro c hc
    obtain rfl : '(' = c := by simpa [more] using hc
    decide
  exact ⟨herror, evaluate_append_of_error herror (by simp) hmore⟩

end PocketCalculator
