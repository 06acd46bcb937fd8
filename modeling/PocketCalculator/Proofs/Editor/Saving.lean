import PocketCalculator.Proofs.Editor.Consistency
import PocketCalculator.Proofs.Json.Records

/-!
# Saved states are read back

A state whose count fits the snapshot is read back from its snapshot exactly if it is consistent;
otherwise the snapshot is refused as inconsistent, and never as malformed. The editor is in
consistent states only, whatever separators each key was pressed with, so no session that it saves
is lost.
-/

namespace PocketCalculator

namespace Snapshot

theorem valid_toJson (shot : Snapshot) : shot.toJson.Valid :=
  ⟨trivial, trivial, trivial, trivial, Json.valid_ofInt _, trivial⟩

/-- The fields of an object that has a snapshot: the number of open parentheses may be left out if
it is zero. -/
inductive Gives (shot : Snapshot) : List (Option Json) → Prop
  | counted : Gives shot [some (.ofText shot.result), some (.ofText shot.previous),
      some (.ofText shot.lastKey), some (.ofText shot.formula), some (.ofInt shot.openCount)]
  | uncounted : shot.openCount = 0 → Gives shot [some (.ofText shot.result),
      some (.ofText shot.previous), some (.ofText shot.lastKey), some (.ofText shot.formula), none]

theorem Gives.length_eq {shot : Snapshot} {values : List (Option Json)} (h : shot.Gives values) :
    fieldNames.length = values.length := by
  cases h with
  | counted => rfl
  | uncounted => rfl

theorem ofJson?_of_gives {shot : Snapshot} {values : List (Option Json)} {v : Json}
    (hgives : shot.Gives values) (hfields : v.fields? fieldNames = some values)
    (hcount : shot.openCount ≤ maxCount) : ofJson? v = some shot := by
  rw [ofJson?, hfields]
  cases hgives with
  | counted =>
    have hint : (Json.ofInt shot.openCount).intIn? 0 maxCount = some (shot.openCount : Int) :=
      Json.intIn?_ofInt (by omega) (by omega)
    dsimp only [Json.ofText, Json.text?, Option.getD_some]
    rw [hint]
    rfl
  | uncounted hzero =>
    have hint : (Json.ofInt 0).intIn? 0 maxCount = some 0 :=
      Json.intIn?_ofInt (by decide) (by decide)
    dsimp only [Json.ofText, Json.text?, Option.getD_none]
    rw [hint]
    dsimp only
    rw [Int.toNat_zero, ← hzero]

theorem ofJson?_toJson {shot : Snapshot} (hcount : shot.openCount ≤ maxCount) :
    ofJson? shot.toJson = some shot := by
  have hfields := Json.hasFields_present fieldNames [some (.ofText shot.result),
    some (.ofText shot.previous), some (.ofText shot.lastKey), some (.ofText shot.formula),
    some (.ofInt shot.openCount)]
  exact ofJson?_of_gives .counted (hfields.fields?_eq (by decide) rfl) hcount

theorem openCount_le_of_ofJson? {shot : Snapshot} {v : Json} (h : ofJson? v = some shot) :
    shot.openCount ≤ maxCount := by
  unfold ofJson? at h
  split at h
  · split at h
    · rename_i count _ _ _ _ hcount
      cases h
      have hbounds := Json.bounds_of_intIn? hcount
      dsimp only
      omega
    · cases h
  · cases h

/-- A snapshot is the state that it was made of, if that one is consistent. -/
theorem toState_ofState (st : State) :
    (st.Consistent → (ofState st).toState = .ok st) ∧
      (¬ st.Consistent → ∃ e, (ofState st).toState = .error e ∧ e ≠ .malformed) := by
  have hmark : Mark.ofName? (String.ofList (ofState st).lastKey) = some st.mark := by
    rw [ofState, String.ofList_toList]
    exact Mark.ofName?_name st.mark
  unfold toState
  rw [hmark]
  dsimp only
  constructor
  · intro h
    have herror : ¬ (st.mark = .afterError ∧ (ofState st).formula ≠ errorMarker) := fun he =>
      he.2 (h.formula_of_error he.1)
    have hcount : ¬ unmatched (ofState st).formula ≠ (ofState st).openCount :=
      not_not.2 h.counted.symm
    rw [if_neg herror, if_neg hcount]
    rfl
  · intro h
    split
    · exact ⟨_, rfl, (nomatch ·)⟩
    · rename_i herror
      have hcount : unmatched (ofState st).formula ≠ (ofState st).openCount := fun hcount =>
        h ⟨hcount.symm, fun hm => by_contra fun hne => herror ⟨hm, hne⟩⟩
      rw [if_pos hcount]
      exact ⟨_, rfl, (nomatch ·)⟩

end Snapshot

namespace State

variable {st : State} {t : Text}

/-- Reading a saved state back is checking its snapshot. -/
theorem restore_save_eq (hcount : st.openCount ≤ Snapshot.maxCount) :
    restore st.save = (Snapshot.ofState st).toState := by
  have hshot : (Snapshot.ofState st).openCount ≤ Snapshot.maxCount := hcount
  unfold restore save
  rw [Json.read?_compact (Snapshot.valid_toJson _), Option.bind_some,
    Snapshot.ofJson?_toJson hshot]

theorem openCount_le_of_restore (h : restore t = .ok st) : st.openCount ≤ Snapshot.maxCount := by
  unfold restore at h
  split at h
  · cases h
  · rename_i shot hshot
    obtain ⟨v, _, hv⟩ := Option.bind_eq_some_iff.1 hshot
    have hcount := Snapshot.openCount_le_of_ofJson? hv
    unfold Snapshot.toState at h
    split at h
    · cases h
    · split at h
      · cases h
      · split at h
        · cases h
        · cases h
          exact hcount

/-- The states that the editor can come to, in sessions with any separators that are no
parentheses. -/
inductive Reachable : State → Prop
  | initial : Reachable .initial
  | restored {t : Text} {st : State} : restore t = .ok st → Reachable st
  | pressed {st : State} {s : Separators} (key : Key) : Reachable st → s.SparesParens →
      Reachable (st.press s key).1

theorem Reachable.consistent (h : Reachable st) : st.Consistent := by
  induction h with
  | initial => exact consistent_initial
  | restored h => exact consistent_of_restore h
  | pressed key _ hs ih => exact ih.press hs key

theorem Consistent.restore_save_eq_ok (h : st.Consistent)
    (hcount : st.openCount ≤ Snapshot.maxCount) : restore st.save = .ok st := by
  rw [restore_save_eq hcount]
  exact (Snapshot.toState_ofState st).1 h

/-- A state with a count of 32 bits is read back from its snapshot if it is consistent, and
otherwise its snapshot is refused as inconsistent. What is read back from any text is consistent,
and so is every state that the editor can come to, so both are read back from their snapshots. -/
theorem restore_save :
    (∀ st : State, st.openCount ≤ Snapshot.maxCount →
      (st.Consistent → restore st.save = .ok st) ∧
        (¬ st.Consistent → ∃ e, restore st.save = .error e ∧ e ≠ .malformed)) ∧
    (∀ (t : Text) (st : State), restore t = .ok st → st.Consistent ∧ restore st.save = .ok st) ∧
    ∀ st : State, Reachable st →
      st.Consistent ∧ (st.openCount ≤ Snapshot.maxCount → restore st.save = .ok st) := by
  refine ⟨fun st hcount => ⟨fun h => h.restore_save_eq_ok hcount, fun h => ?_⟩, fun t st h => ?_,
    fun st h => ⟨h.consistent, h.consistent.restore_save_eq_ok⟩⟩
  · rw [restore_save_eq hcount]
    exact (Snapshot.toState_ofState st).2 h
  · have hconsistent := consistent_of_restore h
    exact ⟨hconsistent, hconsistent.restore_save_eq_ok (openCount_le_of_restore h)⟩

/-- A session with an open parenthesis is not lost. -/
theorem restore_save_open :
    restore (initial.press {} .open).1.save = .ok (initial.press {} .open).1 :=
  (restore_save.2.2 _ (.pressed .open .initial ⟨by decide, by decide⟩)).2 (by decide)

end State

end PocketCalculator
