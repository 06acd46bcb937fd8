import PocketCalculator.Editor.Apply
import PocketCalculator.Proofs.Command.Session

/-!
# What is shown is what the next key edits

Applying a key step by step changes the state as pressing it does, and answers what is shown of the
state that it leaves (`answers_apply`), also where the key is not taken. In a session the readout is
the formula after every key, but for the empty formula of a reset, which is shown as zero
(`readout_apply`). A digit or a decimal separator that is not taken does no harm to this: it finds a
formula that is not empty, so the formula has not just taken the place of an error marker.
-/

namespace PocketCalculator

namespace State

variable {s : Separators} {st : State} {t : Text}

/-! ### Pressing keys -/

/-- Whether the readout is the formula, or the session has just been reset. -/
def Current (st : State) : Prop := st.readout = st.formula ∨ st = initial.reset

theorem current_initial : initial.Current := Or.inl rfl

theorem current_reset (st : State) : st.reset.Current := Or.inr rfl

/-- The keys that show the formula need nothing else. -/
theorem current_shown (st : State) : st.shown.Current := Or.inl rfl

/-- Another formula than the one in the place of an error marker is the formula as it was. -/
theorem withoutError_eq_self (h : (st.withoutError t).formula ≠ t) : st.withoutError t = st := by
  unfold withoutError at h ⊢
  split at h
  · exact absurd rfl h
  · rename_i herror
    exact if_neg herror

theorem Current.pressDigit (h : st.Current) (s : Separators) (d : Fin 10) :
    (st.pressDigit s d).Current := by
  unfold State.pressDigit
  dsimp only
  split
  · rename_i hzero
    have hne : (st.withoutError []).formula ≠ [] := by simp [hzero.1]
    rw [withoutError_eq_self hne]
    exact h
  · exact current_shown _

theorem Current.pressPoint (h : st.Current) (s : Separators) : (st.pressPoint s).Current := by
  unfold State.pressPoint
  dsimp only
  split
  · rename_i hpoint
    have hne : (st.withoutError []).formula ≠ [] := by
      intro hnil
      rw [hnil] at hpoint
      cases hpoint
    rw [withoutError_eq_self hne]
    exact h
  · exact current_shown _

theorem Current.pressClose (h : st.Current) : st.pressClose.Current := by
  unfold State.pressClose
  split
  · exact h
  · exact current_shown _

theorem Current.pressNegate (h : st.Current) : st.pressNegate.Current := by
  unfold State.pressNegate
  split
  · exact current_shown _
  · exact h

/-- A result and the error marker are put in the place of the formula and of the readout. -/
theorem Current.pressEquals (h : st.Current) (s : Separators) : (st.pressEquals s).1.Current := by
  unfold State.pressEquals
  dsimp only
  split
  · exact h
  · split
    · exact Or.inl rfl
    · split
      · exact Or.inl rfl
      · exact Or.inl rfl

theorem current_pressBackspace (s : Separators) (st : State) : (st.pressBackspace s).Current := by
  unfold pressBackspace
  split
  · exact current_reset st
  · exact current_shown _

theorem Current.press (h : st.Current) (s : Separators) (key : Key) :
    (st.press s key).1.Current := by
  cases key with
  | digit d => exact h.pressDigit s d
  | point => exact h.pressPoint s
  | «open» => exact current_shown _
  | close => exact h.pressClose
  | operator op => exact current_shown _
  | negate => exact h.pressNegate
  | equals => exact h.pressEquals s
  | backspace => exact current_pressBackspace s st
  | reset => exact current_reset st
  | load number => exact current_shown _

theorem Current.pressAll (h : st.Current) (s : Separators) (keys : List Key) :
    (st.pressAll s keys).1.Current := by
  induction keys generalizing st with
  | nil => exact h
  | cons key keys ih => exact ih (h.press s key)

end State

namespace Editor

variable {e : Editor} {key : Key}

/-! ### Applying keys -/

/-- What is shown of an editor. -/
def display (e : Editor) : Display := ⟨e.state.evaluated, e.state.readout⟩

/-- An editor after some keys. -/
def pressed (e : Editor) (keys : List Key) : Editor :=
  { e with
    state := (e.state.pressAll e.separators keys).1
    recorded := e.recorded ++ (e.state.pressAll e.separators keys).2 }

theorem pressed_singleton (e : Editor) (key : Key) :
    e.pressed [key] =
      { e with
        state := (e.state.press e.separators key).1
        recorded := e.recorded ++ (e.state.press e.separators key).2.toList } := by
  rw [pressed, State.pressAll, State.pressAll, List.append_nil]

/-- Only the equals key records something. -/
theorem pressed_of_none (h : (e.state.press e.separators key).2 = none) :
    e.pressed [key] = { e with state := (e.state.press e.separators key).1 } := by
  rw [pressed_singleton, h, Option.toList_none, List.append_nil]

theorem run_change_bind {α : Type} (f : State → State) (x : Unit → StateM Editor α) (e : Editor) :
    (change f >>= x).run e = (x ()).run { e with state := f e.state } := rfl

theorem run_get_bind {α : Type} (x : Editor → StateM Editor α) (e : Editor) :
    (get >>= x).run e = (x e).run e := rfl

/-- Whether a program changes an editor as a key does and answers what is shown afterwards. -/
def Answers (x : StateM Editor Display) (key : Key) (e : Editor) : Prop :=
  x.run e = ((e.pressed [key]).display, e.pressed [key])

theorem answers_applyDigit (d : Fin 10) (e : Editor) : Answers (applyDigit d) (.digit d) e := by
  rw [Answers, pressed_of_none rfl, applyDigit, run_change_bind, run_get_bind]
  dsimp only [State.press, State.pressDigit]
  split
  · rfl
  · rfl

theorem answers_applyPoint (e : Editor) : Answers applyPoint .point e := by
  rw [Answers, pressed_of_none rfl, applyPoint, run_change_bind, run_get_bind]
  dsimp only [State.press, State.pressPoint]
  generalize e.state.withoutError [] = st
  split
  · rfl
  · cases st.formula.getLast? with
    | none => rfl
    | some c =>
      dsimp only
      split
      · rfl
      · split
        · rfl
        · rfl

theorem answers_applyOpen (e : Editor) : Answers applyOpen .open e := by
  rw [Answers, pressed_of_none rfl]
  rfl

theorem answers_applyClose (e : Editor) : Answers applyClose .close e := by
  rw [Answers, pressed_of_none rfl, applyClose, run_get_bind]
  dsimp only [State.press, State.pressClose]
  split
  · rfl
  · rfl

theorem answers_applyOperator (op : Operator) (e : Editor) :
    Answers (applyOperator op) (.operator op) e := by
  rw [Answers, pressed_of_none rfl, applyOperator, run_change_bind, run_get_bind,
    run_change_bind, run_get_bind]
  dsimp only [State.press, State.pressOperator]
  split
  · rfl
  · rfl

/-- The sign key answers also whether there was a lone zero. -/
theorem run_applyNegate (e : Editor) :
    applyNegate.run e =
      ((decide (e.state.formula = ['0']), (e.pressed [.negate]).display), e.pressed [.negate]) := by
  rw [pressed_of_none rfl, applyNegate, run_get_bind]
  dsimp only [State.press, State.pressNegate]
  split
  · rename_i hzero
    rw [decide_eq_true hzero]
    rfl
  · rename_i hzero
    rw [decide_eq_false hzero]
    rfl

theorem answers_applyEquals (e : Editor) : Answers applyEquals .equals e := by
  rw [Answers, pressed_singleton, applyEquals, run_get_bind]
  dsimp only [State.press, State.pressEquals]
  split
  · rw [Option.toList_none, List.append_nil]
    rfl
  · rw [run_change_bind]
    cases evaluate (e.separators.plain e.state.closed) with
    | error err =>
      dsimp only
      rw [Option.toList_none, List.append_nil]
      rfl
    | ok value =>
      dsimp only
      split
      · rfl
      · rw [Option.toList_none, List.append_nil]
        rfl

theorem answers_applyReset (e : Editor) : Answers applyReset .reset e := by
  rw [Answers, pressed_of_none rfl]
  rfl

theorem answers_applyBackspace (e : Editor) : Answers applyBackspace .backspace e := by
  rw [Answers, pressed_of_none rfl, applyBackspace, run_get_bind]
  dsimp only [State.press, State.pressBackspace]
  split
  · rfl
  · rw [run_change_bind, run_change_bind, run_get_bind]
    dsimp only
    split
    · rfl
    · rfl

theorem answers_applyLoad (number : Text) (e : Editor) :
    Answers (applyLoad number) (.load number) e := by
  rw [Answers, pressed_of_none rfl]
  rfl

/-- Applying a key is pressing it, and answers what is shown then. -/
theorem answers_apply (key : Key) (e : Editor) : Answers (apply key) key e := by
  cases key with
  | digit d => exact answers_applyDigit d e
  | point => exact answers_applyPoint e
  | «open» => exact answers_applyOpen e
  | close => exact answers_applyClose e
  | operator op => exact answers_applyOperator op e
  | negate =>
    rw [Answers, apply, run_bind_of_eq (run_applyNegate e)]
    rfl
  | equals => exact answers_applyEquals e
  | backspace => exact answers_applyBackspace e
  | reset => exact answers_applyReset e
  | load number => exact answers_applyLoad number e

theorem pressed_cons (e : Editor) (key : Key) (keys : List Key) :
    (e.pressed [key]).pressed keys = e.pressed (key :: keys) := by
  rw [pressed_singleton]
  simp [pressed, State.pressAll]

/-- Applying keys one after the other is pressing them. -/
theorem run_mapM_apply (e : Editor) (keys : List Key) :
    ((keys.mapM apply).run e).2 = e.pressed keys := by
  induction keys generalizing e with
  | nil =>
    rw [pressed, State.pressAll, List.append_nil]
    rfl
  | cons key keys ih => rw [run_mapM_cons, answers_apply, ih, pressed_cons]

/-- In a session with any separators, after every key the readout is the formula, or the session is
as after a reset, with an empty formula and a zero as readout. Applying the key answers the formula
that was evaluated last and this readout, and these are the two lines that are printed for the state
that pressing the keys leaves. -/
theorem readout_apply (s : Separators) (keys : List Key) (key : Key) :
    let before := ((keys.mapM apply).run { separators := s }).2
    let applied := (apply key).run before
    let st := applied.2.state
    (st.readout = st.formula ∨
        st.formula = [] ∧ st.readout = ['0'] ∧ st = State.initial.reset) ∧
      applied.1 = ⟨st.evaluated, st.readout⟩ ∧
      st = (State.initial.pressAll s (keys ++ [key])).1 ∧
      Session.display st = applied.1.formula ++ '\n' :: applied.1.result ++ ['\n'] := by
  intro before applied st
  have hbefore : before = ({ separators := s } : Editor).pressed keys := run_mapM_apply _ keys
  have happlied : applied = ((before.pressed [key]).display, before.pressed [key]) :=
    answers_apply key before
  have hst : st = (State.initial.pressAll s (keys ++ [key])).1 := by
    rw [State.pressAll_append]
    simp only [st, happlied, hbefore]
    rfl
  have hcurrent : st.Current := by
    rw [hst]
    exact State.current_initial.pressAll s _
  have hdisplay : applied.1 = ⟨st.evaluated, st.readout⟩ := by
    simp only [st, happlied]
    rfl
  refine ⟨hcurrent.imp_right fun hreset => ?_, hdisplay, hst, ?_⟩
  · rw [hreset]
    exact ⟨rfl, rfl, rfl⟩
  · rw [hdisplay]
    rfl

end Editor

end PocketCalculator
