import PocketCalculator.Expression.Evaluate

/-!
# Recursive descent

The evaluator as a recursive descent over a scanner. A scanner stands at a place in a text, goes on
from there, and counts the factors that are being read: the counter is up by one while a factor is
read. If there is a limit, no factor is entered once the counter is at it.

There is no answer if the descent runs out of fuel, that is, if it has to go deeper or to repeat
more often than that. If what a scanner does goes with what another one does, so does what the
descent does over them, and with more fuel as well (`whole_refines`).
-/

namespace PocketCalculator

/-- Reading with a state, which is there after an error, too. There may be no answer. -/
abbrev Reading (σ : Type) := ExceptT EvalError (StateT σ Option)

namespace Reading

section Steps

variable {σ α β : Type}

/-- The answer of a reading and the state after it, if there is an answer. -/
def answer? (b : Reading σ α) (s : σ) : Option (Except EvalError α × σ) :=
  b.run.run s

/-- No answer. -/
def stuck : Reading σ α := fun _ => none

/-- What the state shows. -/
def look (f : σ → α) : Reading σ α := do return f (← get)

variable {b : Reading σ α} {k : α → Reading σ β} {s s' : σ} {a : α}

theorem answer?_bind_ok (h : b.answer? s = some (.ok a, s')) :
    (b >>= k).answer? s = (k a).answer? s' := by
  unfold answer? at h ⊢
  rw [ExceptT.run_bind, StateT.run_bind, h]
  rfl

theorem answer?_bind_error {e : EvalError} (h : b.answer? s = some (.error e, s')) :
    (b >>= k).answer? s = some (.error e, s') := by
  unfold answer? at h ⊢
  rw [ExceptT.run_bind, StateT.run_bind, h]
  rfl

theorem answer?_bind_none (h : b.answer? s = none) : (b >>= k).answer? s = none := by
  unfold answer? at h ⊢
  rw [ExceptT.run_bind, StateT.run_bind, h]
  rfl

theorem answer?_get_bind (k : σ → Reading σ β) (s : σ) :
    (get >>= k).answer? s = (k s).answer? s := rfl

theorem answer?_look_bind (f : σ → α) (k : α → Reading σ β) (s : σ) :
    (look f >>= k).answer? s = (k (f s)).answer? s := rfl

variable {test : Reading σ Bool}

/-- What is done after a test that succeeds. -/
theorem answer?_then (h : test.answer? s = some (.ok true, s')) (yes no : Reading σ α) :
    (do if ← test then yes else no : Reading σ α).answer? s = yes.answer? s' :=
  answer?_bind_ok h

/-- What is done after one that does not. -/
theorem answer?_else (h : test.answer? s = some (.ok false, s')) (yes no : Reading σ α) :
    (do if ← test then yes else no : Reading σ α).answer? s = no.answer? s' :=
  answer?_bind_ok h

end Steps

/-! ### Readings that go together -/

/-- Whether a reading gives every answer that another one gives, if the states before go together;
then those after it go together as well. -/
def Refines {σ τ α : Type} (R : σ → τ → Prop) (b : Reading σ α) (b' : Reading τ α) : Prop :=
  ∀ ⦃s t⦄, R s t → ∀ ⦃outcome t'⦄, b'.answer? t = some (outcome, t') →
    ∃ s', b.answer? s = some (outcome, s') ∧ R s' t'

section Refinement

variable {σ τ α β : Type} {R : σ → τ → Prop} {b : Reading σ α} {b' : Reading τ α}

theorem refines_of_answer (h : ∀ s t, R s t → ∃ outcome s' t',
    b.answer? s = some (outcome, s') ∧ b'.answer? t = some (outcome, t') ∧ R s' t') :
    Refines R b b' := by
  intro s t hst outcome last hlast
  obtain ⟨outcome', s', t', hs, ht, hst'⟩ := h s t hst
  obtain ⟨rfl, rfl⟩ := Prod.mk.inj (Option.some.inj (hlast.symm.trans ht))
  exact ⟨s', hs, hst'⟩

theorem refines_stuck (b : Reading σ α) : Refines R b (stuck : Reading τ α) :=
  fun _ _ _ _ _ h => by cases h

theorem refines_pure (a : α) : Refines R (pure a) (pure a) :=
  refines_of_answer fun s t hst => ⟨.ok a, s, t, rfl, rfl, hst⟩

theorem refines_throw (e : EvalError) :
    Refines R (throw e : Reading σ α) (throw e : Reading τ α) :=
  refines_of_answer fun s t hst => ⟨.error e, s, t, rfl, rfl, hst⟩

theorem refines_look {f : σ → α} {g : τ → α} (h : ∀ ⦃s t⦄, R s t → f s = g t) :
    Refines R (look f) (look g) :=
  refines_of_answer fun s t hst => ⟨.ok (f s), s, t, rfl, h hst ▸ rfl, hst⟩

theorem Refines.bind {k : α → Reading σ β} {k' : α → Reading τ β} (hb : Refines R b b')
    (hk : ∀ a, Refines R (k a) (k' a)) : Refines R (b >>= k) (b' >>= k') := by
  intro s t hst outcome last h
  -- what comes first has an answer, since the whole has one
  cases hread : b'.answer? t with
  | none =>
    rw [answer?_bind_none hread] at h
    cases h
  | some answer =>
    obtain ⟨first, t'⟩ := answer
    obtain ⟨s', hread', hst'⟩ := hb hst hread
    cases first with
    | error e =>
      rw [answer?_bind_error hread] at h
      obtain ⟨rfl, rfl⟩ := Prod.mk.inj (Option.some.inj h)
      exact ⟨s', answer?_bind_error hread', hst'⟩
    | ok a =>
      rw [answer?_bind_ok hread] at h
      rw [answer?_bind_ok hread']
      exact hk a hst' h

/-- From the same state, the same answer is given. -/
theorem Refines.answer?_eq {b b' : Reading σ α} (h : Refines Eq b b') {s : σ}
    {x : Except EvalError α × σ} (hx : b'.answer? s = some x) : b.answer? s = some x := by
  obtain ⟨s', hs', rfl⟩ := h rfl hx
  exact hs'

theorem Refines.ite {p : Prop} [Decidable p] {no : Reading σ α} {no' : Reading τ α}
    (hb : Refines R b b') (hno : Refines R no no') :
    Refines R (if p then b else no) (if p then b' else no') := by
  split
  · exact hb
  · exact hno

end Refinement

end Reading

open Reading

/-- How a text is read with a state. -/
structure Scanner (σ : Type) where
  /-- The number of bytes before the place. -/
  position : σ → Nat
  /-- The character at the place, if it is not the end. -/
  current : σ → Option Char
  /-- Goes on behind this character. -/
  advance : Reading σ Unit
  /-- Goes on behind the characters of a class. -/
  skipWhile : (Char → Bool) → Reading σ Unit
  /-- Goes on behind the characters of a class, and answers them. -/
  run : (Char → Bool) → Reading σ Text
  /-- The number of factors that are being read. -/
  depth : σ → Nat
  /-- Counts a factor. -/
  enter : σ → σ
  /-- Does not count it any more. -/
  leave : σ → σ

namespace Scanner

/-! ### The descent -/

section Descent

variable {σ : Type} (S : Scanner σ)

/-- Reads a character if it is the next one that is not blank. -/
def eat (expected : Char) : Reading σ Bool := do
  S.skipWhile isBlank
  if (← look S.current) = some expected then
    S.advance
    return true
  else return false

def unexpected : Reading σ Float := do
  let position ← look S.position
  let found ← look S.current
  throw (.unexpected position found)

/-- Goes on through fewer than `fuel` of two operators of one rank and their right operands. -/
def chain (first second : Char) (f g : Float → Float → Float) (operand : Reading σ Float) :
    (fuel : Nat) → Float → Reading σ Float
  | 0, _ => stuck
  | fuel + 1, value => do
    if ← S.eat first then chain first second f g operand fuel (f value (← operand))
    else if ← S.eat second then chain first second f g operand fuel (g value (← operand))
    else return value

def operands (first second : Char) (f g : Float → Float → Float) (fuel : Nat)
    (operand : Reading σ Float) : Reading σ Float := do
  S.chain first second f g operand fuel (← operand)

def product (fuel : Nat) (factor : Reading σ Float) : Reading σ Float :=
  S.operands '*' '/' (· * ·) (· / ·) fuel factor

def sum (fuel : Nat) (factor : Reading σ Float) : Reading σ Float :=
  S.operands '+' '-' (· + ·) (· - ·) fuel (S.product fuel factor)

def number : Reading σ Float := do
  let start ← look S.position
  let literal ← S.run Expression.isLiteralChar
  match Decimal.ofLiteral? literal with
  | none => throw (.unexpected start literal.head?)
  | some x => x.toFloat?.elim (throw .overflow) pure

def application (factor : Reading σ Float) : Reading σ Float := do
  let name ← S.run Char.isLower
  if name = "sqrt".toList then return (← factor).sqrt
  else throw (.unknownFunction name)

def group (fuel : Nat) (factor : Reading σ Float) : Reading σ Float := do
  let value ← S.sum fuel factor
  if ← S.eat ')' then return value
  else S.unexpected

def atom (fuel : Nat) (factor : Reading σ Float) : Reading σ Float := do
  if ← S.eat '(' then S.group fuel factor
  else
    let next? ← look S.current
    if next?.any Expression.isLiteralChar then S.number
    else if next?.any Char.isLower then S.application factor
    else S.unexpected

def power (factor : Reading σ Float) (base : Float) : Reading σ Float := do
  if ← S.eat '^' then return base.pow (← factor)
  else return base

def percent (value : Float) : Reading σ Float := do
  if ← S.eat '%' then return value / 100
  else return value

/-- One level of factors over the factors inside them. -/
def level (fuel : Nat) (factor : Reading σ Float) : Reading σ Float := do
  if ← S.eat '+' then factor
  else if ← S.eat '-' then return -(← factor)
  else
    let base ← S.atom fuel factor
    let raised ← S.power factor base
    S.percent raised

/-- The limit on the counter, if there is one. -/
def checkDepth (limit? : Option Nat) : Reading σ Unit := do
  let active ← look S.depth
  let position ← look S.position
  match limit? with
  | none => return
  | some limit => if limit ≤ active then throw (.nestedTooDeep position limit)

/-- Counts a factor while it is read. The counter goes down again behind a value and after an
error. -/
def counted (b : Reading σ Float) : Reading σ Float := fun s =>
  (b.answer? (S.enter s)).map fun inside => (inside.1, S.leave inside.2)

/-- A factor, if the limit allows it. -/
def factor (limit? : Option Nat) : (fuel : Nat) → Reading σ Float
  | 0 => stuck
  | fuel + 1 => do
    S.checkDepth limit?
    S.counted (S.level fuel (factor limit? fuel))

def whole (limit? : Option Nat) (fuel : Nat) : Reading σ Float := do
  let value ← S.sum fuel (S.factor limit? fuel)
  S.skipWhile isBlank
  if (← look S.current).isSome then S.unexpected
  else return value

theorem answer?_counted (b : Reading σ Float) (s : σ) :
    (S.counted b).answer? s =
      (b.answer? (S.enter s)).map fun inside => (inside.1, S.leave inside.2) := rfl

end Descent

/-! ### Scanners that go together -/

/-- Whether what a scanner shows and does goes with what another one shows and does. -/
structure Refines {σ τ : Type} (R : σ → τ → Prop) (S : Scanner σ) (T : Scanner τ) : Prop where
  position_eq : ∀ ⦃s t⦄, R s t → S.position s = T.position t
  current_eq : ∀ ⦃s t⦄, R s t → S.current s = T.current t
  advance : Reading.Refines R S.advance T.advance
  skipWhile : ∀ p, Reading.Refines R (S.skipWhile p) (T.skipWhile p)
  run : ∀ p, Reading.Refines R (S.run p) (T.run p)
  depth_eq : ∀ ⦃s t⦄, R s t → S.depth s = T.depth t
  enter : ∀ ⦃s t⦄, R s t → R (S.enter s) (T.enter t)
  leave : ∀ ⦃s t⦄, R s t → R (S.leave s) (T.leave t)

theorem Refines.refl {σ : Type} (S : Scanner σ) : Refines Eq S S := by
  have hself : ∀ {α : Type} (b : Reading σ α), Reading.Refines Eq b b := fun b s t hst _ t' h =>
    ⟨t', hst ▸ h, rfl⟩
  exact
    { position_eq := fun _ _ => congrArg S.position
      current_eq := fun _ _ => congrArg S.current
      advance := hself S.advance
      skipWhile := fun p => hself (S.skipWhile p)
      run := fun p => hself (S.run p)
      depth_eq := fun _ _ => congrArg S.depth
      enter := fun _ _ => congrArg S.enter
      leave := fun _ _ => congrArg S.leave }

section Refinement

variable {σ τ α : Type} {R : σ → τ → Prop} {S : Scanner σ} {T : Scanner τ} {b no : Reading σ α}
  {b' no' : Reading τ α}

theorem Refines.eat (h : Refines R S T) (c : Char) : Reading.Refines R (S.eat c) (T.eat c) :=
  (h.skipWhile isBlank).bind fun _ => (refines_look h.current_eq).bind fun _ =>
    (h.advance.bind fun _ => refines_pure true).ite (refines_pure false)

/-- What is done with and without a character. -/
theorem Refines.eat_bind (h : Refines R S T) (c : Char) (hb : Reading.Refines R b b')
    (hno : Reading.Refines R no no') :
    Reading.Refines R (do if ← S.eat c then b else no) (do if ← T.eat c then b' else no') :=
  (h.eat c).bind fun _ => hb.ite hno

theorem Refines.unexpected (h : Refines R S T) : Reading.Refines R S.unexpected T.unexpected :=
  (refines_look h.position_eq).bind fun _ => (refines_look h.current_eq).bind fun _ =>
    refines_throw _

theorem Refines.number (h : Refines R S T) : Reading.Refines R S.number T.number := by
  refine (refines_look h.position_eq).bind fun start =>
    (h.run Expression.isLiteralChar).bind fun literal => ?_
  cases Decimal.ofLiteral? literal with
  | none => exact refines_throw _
  | some x =>
    dsimp only
    cases x.toFloat? with
    | none => exact refines_throw _
    | some value => exact refines_pure value

theorem Refines.checkDepth (h : Refines R S T) (limit? : Option Nat) :
    Reading.Refines R (S.checkDepth limit?) (T.checkDepth limit?) := by
  refine (refines_look h.depth_eq).bind fun active => (refines_look h.position_eq).bind fun _ => ?_
  cases limit? with
  | none => exact refines_pure ()
  | some limit => exact (refines_throw _).ite (refines_pure ())

variable {first second : Char} {f g : Float → Float → Float} {inner : Reading σ Float}
  {inner' : Reading τ Float} {fuel fuel' : Nat}

theorem Refines.counted (h : Refines R S T) (hr : Reading.Refines R inner inner') :
    Reading.Refines R (S.counted inner) (T.counted inner') := by
  intro s t hst outcome last hlast
  rw [answer?_counted] at hlast
  obtain ⟨⟨outcome', t'⟩, hinside, hlast⟩ := Option.map_eq_some_iff.1 hlast
  obtain ⟨rfl, rfl⟩ := Prod.mk.inj hlast
  obtain ⟨s', hinside', hst'⟩ := hr (h.enter hst) hinside
  exact ⟨S.leave s', by rw [answer?_counted, hinside', Option.map_some], h.leave hst'⟩

theorem chain_refines (h : Refines R S T) (hr : Reading.Refines R inner inner')
    (hfuel : fuel' ≤ fuel) (value : Float) :
    Reading.Refines R (S.chain first second f g inner fuel value)
      (T.chain first second f g inner' fuel' value) := by
  -- on the smaller fuel: where that runs out, nothing is asked of the other scanner
  induction fuel' generalizing fuel value with
  | zero => exact refines_stuck _
  | succ fuel' ih =>
    obtain ⟨fuel, rfl⟩ : ∃ n, fuel = n + 1 := ⟨fuel - 1, by omega⟩
    have hle := Nat.le_of_succ_le_succ hfuel
    exact h.eat_bind first (hr.bind fun _ => ih hle _) <|
      h.eat_bind second (hr.bind fun _ => ih hle _) <| refines_pure value

theorem sum_refines (h : Refines R S T) (hr : Reading.Refines R inner inner')
    (hfuel : fuel' ≤ fuel) : Reading.Refines R (S.sum fuel inner) (T.sum fuel' inner') := by
  have hproduct : Reading.Refines R (S.product fuel inner) (T.product fuel' inner') :=
    hr.bind fun value => chain_refines h hr hfuel value
  exact hproduct.bind fun value => chain_refines h hproduct hfuel value

theorem atom_refines (h : Refines R S T) (hr : Reading.Refines R inner inner')
    (hfuel : fuel' ≤ fuel) : Reading.Refines R (S.atom fuel inner) (T.atom fuel' inner') := by
  have hgroup : Reading.Refines R (S.group fuel inner) (T.group fuel' inner') :=
    (sum_refines h hr hfuel).bind fun value => h.eat_bind ')' (refines_pure value) h.unexpected
  have happlication : Reading.Refines R (S.application inner) (T.application inner') :=
    (h.run Char.isLower).bind fun _ => (hr.bind fun _ => refines_pure _).ite (refines_throw _)
  exact h.eat_bind '(' hgroup <| (refines_look h.current_eq).bind fun _ =>
    h.number.ite <| happlication.ite h.unexpected

theorem level_refines (h : Refines R S T) (hr : Reading.Refines R inner inner')
    (hfuel : fuel' ≤ fuel) : Reading.Refines R (S.level fuel inner) (T.level fuel' inner') := by
  have hpower : ∀ base, Reading.Refines R (S.power inner base) (T.power inner' base) :=
    fun base => h.eat_bind '^' (hr.bind fun _ => refines_pure _) (refines_pure base)
  have hpercent : ∀ value, Reading.Refines R (S.percent value) (T.percent value) :=
    fun value => h.eat_bind '%' (refines_pure _) (refines_pure value)
  exact h.eat_bind '+' hr <| h.eat_bind '-' (hr.bind fun _ => refines_pure _) <|
    (atom_refines h hr hfuel).bind fun base => (hpower base).bind hpercent

theorem factor_refines (h : Refines R S T) (limit? : Option Nat) (hfuel : fuel' ≤ fuel) :
    Reading.Refines R (S.factor limit? fuel) (T.factor limit? fuel') := by
  induction fuel' generalizing fuel with
  | zero => exact refines_stuck _
  | succ fuel' ih =>
    obtain ⟨fuel, rfl⟩ : ∃ n, fuel = n + 1 := ⟨fuel - 1, by omega⟩
    have hle := Nat.le_of_succ_le_succ hfuel
    exact (h.checkDepth limit?).bind fun _ => h.counted (level_refines h (ih hle) hle)

/-- A whole text is read alike over scanners that go together, and with more fuel. -/
theorem whole_refines (h : Refines R S T) (limit? : Option Nat) (hfuel : fuel' ≤ fuel) :
    Reading.Refines R (S.whole limit? fuel) (T.whole limit? fuel') :=
  (sum_refines h (factor_refines h limit? hfuel) hfuel).bind fun value =>
    (h.skipWhile isBlank).bind fun _ => (refines_look h.current_eq).bind fun _ =>
      h.unexpected.ite (refines_pure value)

end Refinement

end Scanner

end PocketCalculator
