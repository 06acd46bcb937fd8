import PocketCalculator.Text.Basic

/-!
# The state of the editor

The formula under edit, the readout, the formula that was evaluated last, the number of open
parentheses, and a mark for the last key that later keys depend on.
-/

namespace PocketCalculator

/-- What the last key did, as far as later keys depend on it. -/
inductive Mark where
  | idle
  | afterOperator
  | afterEvaluation
  /-- The readout shows the error marker. -/
  | afterError
  /-- Backspace emptied the formula. -/
  | cleared
deriving DecidableEq, Repr

namespace Mark

/-- All marks. -/
def all : List Mark := [idle, afterOperator, afterEvaluation, afterError, cleared]

/-- The name of a mark in a saved session. -/
def name : Mark → String
  | idle => ""
  | afterOperator => "operator"
  | afterEvaluation => "equals"
  | afterError => "error"
  | cleared => "clear"

/-- The mark with a name. -/
def ofName? (s : String) : Option Mark :=
  all.find? fun m => m.name == s

theorem ofName?_name (m : Mark) : ofName? m.name = some m := by
  cases m <;> decide

end Mark

/-- Everything that a session goes on from. -/
structure State where
  /-- The formula as typed, with grouping separators and glyphs. -/
  formula : Text
  /-- What the readout shows. -/
  readout : Text
  /-- The formula that was evaluated last; empty if there is none. -/
  evaluated : Text
  /-- The number of opening parentheses of the formula that no closing one matches. -/
  openCount : Nat
  mark : Mark
deriving DecidableEq, Repr

/-- The state of a new session. -/
def State.initial : State :=
  ⟨['0'], ['0'], [], 0, .idle⟩

instance : Inhabited State := ⟨.initial⟩

/-- One more parenthesis, or one less unless there is none, or another character. -/
def openAfter (count : Nat) (c : Char) : Nat :=
  if c = '(' then count + 1
  else if c = ')' then count - 1
  else count

/-- The number of opening parentheses without a closing one. -/
def unmatched (t : Text) : Nat :=
  t.foldl openAfter 0

@[simp] theorem unmatched_nil : unmatched [] = 0 := rfl

theorem unmatched_append_singleton (t : Text) (c : Char) :
    unmatched (t ++ [c]) = openAfter (unmatched t) c := by
  simp [unmatched]

/-- A text without the closing parentheses that close nothing, when `count` are open before it. -/
def dropStrayFrom : (count : Nat) → Text → Text
  | _, [] => []
  | 0, ')' :: rest => dropStrayFrom 0 rest
  | count, c :: rest => c :: dropStrayFrom (openAfter count c) rest

/-- Dropping is all that happens. -/
theorem dropStrayFrom_sublist (count : Nat) (t : Text) : (dropStrayFrom count t).Sublist t := by
  fun_induction dropStrayFrom count t with
  | case1 => exact List.Sublist.refl _
  | case2 rest ih => exact ih.cons _
  | case3 count c rest _ ih => exact ih.cons_cons _

/-- A text without the closing parentheses that close nothing. -/
def dropStray (t : Text) : Text :=
  dropStrayFrom 0 t

end PocketCalculator
