import PocketCalculator.Expression.Evaluate
import PocketCalculator.Proofs.Text.Runs

/-!
# Places that a reader comes to

A reader goes on in the text of its cursor: the cursor behind what it has read stands further on in
that text, with its position counted in bytes (`Cursor.Reaches`), and so does the place that an
error names (`EvalError.Within`). One lemma a reader, and `factor_advances` ties them by induction
on the levels that are left.
-/

namespace PocketCalculator

namespace Cursor

variable {cur mid behind : Cursor}

/-- A place in the same text, further on or the same. -/
def Reaches (cur behind : Cursor) : Prop :=
  ∃ read, cur.rest = read ++ behind.rest ∧ behind.position = cur.position + utf8Length read

theorem Reaches.refl (cur : Cursor) : cur.Reaches cur := ⟨[], rfl, rfl⟩

theorem Reaches.trans (h : cur.Reaches mid) (h' : mid.Reaches behind) : cur.Reaches behind := by
  obtain ⟨read, hrest, hposition⟩ := h
  obtain ⟨read', hrest', hposition'⟩ := h'
  refine ⟨read ++ read', ?_, ?_⟩
  · rw [hrest, hrest', List.append_assoc]
  · rw [hposition', hposition, utf8Length_append, Nat.add_assoc]

theorem reaches_after {piece rest : Text} (h : cur.rest = piece ++ rest) :
    cur.Reaches (cur.after piece rest) :=
  ⟨piece, h, rfl⟩

theorem reaches_skipWhile (p : Char → Bool) (cur : Cursor) : cur.Reaches (cur.skipWhile p) :=
  reaches_after List.takeWhile_append_dropWhile.symm

theorem reaches_skipBlank (cur : Cursor) : cur.Reaches cur.skipBlank :=
  reaches_skipWhile isBlank cur

theorem skipWhile_of_stopsAt {p : Char → Bool} (h : StopsAt p cur.rest) :
    cur.skipWhile p = cur := by
  rw [Cursor.skipWhile, h.takeWhile_eq_nil, h.dropWhile_eq]
  rfl

theorem skipWhile_of_pos {p : Char → Bool} {c : Char} {rest : Text} (hcur : cur.rest = c :: rest)
    (hc : p c) : cur.skipWhile p = (cur.after [c] rest).skipWhile p := by
  rw [Cursor.skipWhile, hcur, List.takeWhile_cons_of_pos hc, List.dropWhile_cons_of_pos hc]
  simp [Cursor.skipWhile, Cursor.after, Nat.add_assoc]

theorem skipBlank_skipBlank (cur : Cursor) : cur.skipBlank.skipBlank = cur.skipBlank :=
  skipWhile_of_stopsAt (stopsAt_dropWhile cur.rest)

/-- The place behind the next token. -/
theorem reaches_token {c : Char} {rest : Text} (h : cur.skipBlank.rest = c :: rest) :
    cur.Reaches (cur.skipBlank.after [c] rest) :=
  (reaches_skipBlank cur).trans (reaches_after h)

theorem Reaches.length_le (h : cur.Reaches behind) : behind.rest.length ≤ cur.rest.length := by
  obtain ⟨read, hrest, -⟩ := h
  simp [hrest]

end Cursor

open Cursor

/-- The place that an error names, if it names one, is further on. -/
def EvalError.Within (cur : Cursor) : EvalError → Prop
  | .unexpected position found => ∃ rest, cur.Reaches ⟨position, rest⟩ ∧ rest.head? = found
  | .nestedTooDeep position _ => ∃ rest, cur.Reaches ⟨position, rest⟩
  | .unknownFunction _ | .overflow => True

theorem within_unexpected (cur : Cursor) : cur.unexpected.Within cur :=
  ⟨cur.rest, Reaches.refl cur, rfl⟩

theorem EvalError.Within.of_reaches {cur mid : Cursor} {e : EvalError} (he : e.Within mid)
    (h : cur.Reaches mid) : e.Within cur := by
  cases e with
  | unexpected position found =>
    obtain ⟨rest, hstop, hfound⟩ := he
    exact ⟨rest, h.trans hstop, hfound⟩
  | nestedTooDeep position limit =>
    obtain ⟨rest, hstop⟩ := he
    exact ⟨rest, h.trans hstop⟩
  | unknownFunction name => trivial
  | overflow => trivial

namespace Expression

/-- Whether an answer is about places further on. -/
def Leads (cur : Cursor) : Except EvalError (Float × Cursor) → Prop
  | .ok (_, behind) => cur.Reaches behind
  | .error e => e.Within cur

theorem Leads.of_reaches {cur mid : Cursor} {answer : Except EvalError (Float × Cursor)}
    (ha : Leads mid answer) (h : cur.Reaches mid) : Leads cur answer := by
  cases answer with
  | ok answer => exact h.trans ha
  | error e => exact EvalError.Within.of_reaches ha h

/-- Whether all answers of a reader are about places further on. -/
def Advances (r : Reader) : Prop := ∀ cur, Leads cur (r cur)

theorem Advances.reaches {r : Reader} (hr : Advances r) {cur behind : Cursor} {value : Float}
    (h : r cur = .ok (value, behind)) : cur.Reaches behind := by
  have hleads := hr cur
  rwa [h] at hleads

theorem Advances.within {r : Reader} (hr : Advances r) {cur : Cursor} {e : EvalError}
    (h : r cur = .error e) : e.Within cur := by
  have hleads := hr cur
  rwa [h] at hleads

section Readers

variable {r factor : Reader} {operator? : Char → Option (Float → Float → Float)}

theorem chain_advances (hr : Advances r) (count : Nat) (value : Float) :
    Advances (chain operator? r count value) := by
  induction count generalizing value with
  | zero => exact fun cur => Reaches.refl cur
  | succ count ih =>
    intro cur
    unfold chain
    dsimp only
    split
    · exact reaches_skipBlank cur
    · rename_i c rest hnext
      have htoken := reaches_token hnext
      split
      · exact reaches_skipBlank cur
      · split
        · rename_i e hread
          exact (hr.within hread).of_reaches htoken
        · rename_i right behind hread
          exact (ih _ behind).of_reaches (htoken.trans (hr.reaches hread))

theorem operands_advances (hr : Advances r) : Advances (operands operator? r) := by
  intro cur
  unfold operands
  split
  · rename_i e hread
    exact hr.within hread
  · rename_i first behind hread
    exact (chain_advances hr _ first behind).of_reaches (hr.reaches hread)

theorem sum_advances (hr : Advances factor) : Advances (sum factor) :=
  operands_advances (operands_advances hr)

theorem literal_advances : Advances literal := by
  intro cur
  unfold literal
  split
  · exact within_unexpected cur
  · rename_i x _
    cases x.toFloat? with
    | none => trivial
    | some value => exact reaches_skipWhile isLiteralChar cur

theorem application_advances (hr : Advances factor) : Advances (application factor) := by
  intro cur
  have hname := reaches_skipWhile Char.isLower cur
  unfold application
  dsimp only
  split
  · split
    · rename_i e hread
      exact (hr.within hread).of_reaches hname
    · rename_i value behind hread
      exact hname.trans (hr.reaches hread)
  · trivial

theorem group_advances (hr : Advances factor) : Advances (group factor) := by
  intro cur
  unfold group
  split
  · rename_i e hread
    exact (sum_advances hr).within hread
  · rename_i value behind hread
    have hinner := (sum_advances hr).reaches hread
    dsimp only
    split
    · rename_i rest hclose
      exact hinner.trans (reaches_token hclose)
    · exact (within_unexpected _).of_reaches (hinner.trans (reaches_skipBlank behind))

theorem atom_advances (hr : Advances factor) : Advances (atom factor) := by
  intro cur
  unfold atom
  split
  · exact within_unexpected cur
  · rename_i c rest hcur
    split
    · exact (group_advances hr _).of_reaches (reaches_after hcur)
    · split
      · exact literal_advances cur
      · split
        · exact application_advances hr cur
        · exact within_unexpected cur

theorem power_advances (hr : Advances factor) (value : Float) :
    Advances (power factor value) := by
  intro cur
  unfold power
  dsimp only
  split
  · rename_i rest hnext
    have htoken := reaches_token hnext
    split
    · rename_i e hread
      exact (hr.within hread).of_reaches htoken
    · rename_i exponent behind hread
      exact htoken.trans (hr.reaches hread)
  · exact reaches_skipBlank cur

theorem reaches_percent (value : Float) (cur : Cursor) : cur.Reaches (percent value cur).2 := by
  unfold percent
  dsimp only
  split
  · rename_i rest hnext
    exact reaches_token hnext
  · exact reaches_skipBlank cur

theorem level_advances (hr : Advances factor) : Advances (level factor) := by
  intro cur
  unfold level
  dsimp only
  split
  · rename_i rest hnext
    exact (hr _).of_reaches (reaches_token hnext)
  · rename_i rest hnext
    have htoken := reaches_token hnext
    split
    · rename_i e hread
      exact (hr.within hread).of_reaches htoken
    · rename_i value behind hread
      exact htoken.trans (hr.reaches hread)
  · have hblank := reaches_skipBlank cur
    split
    · rename_i e hatom
      exact ((atom_advances hr).within hatom).of_reaches hblank
    · rename_i value behind hatom
      have hbase := hblank.trans ((atom_advances hr).reaches hatom)
      split
      · rename_i e hpower
        exact ((power_advances hr value).within hpower).of_reaches hbase
      · rename_i raised last hpower
        exact (hbase.trans ((power_advances hr value).reaches hpower)).trans
          (reaches_percent raised last)

end Readers

theorem factor_advances (limit n : Nat) : Advances (factor limit n) := by
  induction n with
  | zero => exact fun cur => ⟨cur.rest, Reaches.refl cur⟩
  | succ n ih => exact level_advances ih

/-- Every error of a whole expression is about a place in it. -/
theorem within_evaluateWithin {n : Nat} {t : Text} {e : EvalError}
    (h : evaluateWithin n t = .error e) : e.Within (Cursor.start t) := by
  have hsum := sum_advances (factor_advances n n)
  unfold evaluateWithin at h
  split at h
  · rename_i hread
    cases h
    exact hsum.within hread
  · rename_i value behind hread
    dsimp only at h
    split at h
    · cases h
    · cases h
      exact (within_unexpected _).of_reaches ((hsum.reaches hread).trans (reaches_skipBlank behind))

end Expression

end PocketCalculator
