import Mathlib.Data.List.DropRight
import PocketCalculator.History.Writer

/-!
# A writer at work

Entries are sent to a writer from anywhere and at any time, and so are stops, while the writer
tries entries and comes to stops: a run is any sequence of these actions. What becomes of the
entries that are sent before the first stop is the same in all of them. Each has its turn, in the
order in which they are sent, until the writer ends (`Service.sound_run`).
-/

namespace PocketCalculator

/-- Something that happens to a writer or that it does. -/
inductive Action where
  /-- Somebody sends a message, be it an entry or, to shut the writer down, a stop. -/
  | send (msg : Message)
  /-- The writer tries the first entry of its queue. -/
  | attempt
  /-- The writer takes a stop from its queue. -/
  | finish
deriving DecidableEq, Repr

/-- The messages that are sent by an action. -/
def Action.sent : Action → List Message
  | send msg => [msg]
  | attempt => []
  | finish => []

/-- The messages that are sent in a run. -/
def messages (actions : List Action) : List Message :=
  actions.flatMap Action.sent

/-- The entries before the first stop. -/
def beforeStop : List Message → List Entry
  | .record e :: rest => e :: beforeStop rest
  | _ => []

/-- The entries that have been stored. -/
def storedOf (tried : List (Entry × Outcome)) : List Entry :=
  tried.filterMap fun (e, o) => if o = .stored then some e else none

/-- A writer with its store and everything that it has tried so far. -/
structure Service (σ : Type) where
  writer : Writer
  store : σ
  tried : List (Entry × Outcome) := []

namespace Service

variable {σ : Type}

/-- A new writer that tries every entry up to `retries` times again. -/
def start (retries : Nat) (store : σ) : Service σ :=
  { writer := { retries }, store }

/-- The service after the writer has tried the first entry of its queue, if there is one. -/
def afterAttempt (attempt : Entry → StateM σ Outcome) (s : Service σ) : Service σ :=
  match s.writer.next? with
  | none => s
  | some e =>
    let (o, store) := (attempt e).run s.store
    ⟨s.writer.told o, store, s.tried ++ [(e, o)]⟩

/-- The service after an action. -/
def step (attempt : Entry → StateM σ Outcome) (s : Service σ) : Action → Service σ
  | .send msg => { s with writer := s.writer.send msg }
  | .attempt => s.afterAttempt attempt
  | .finish => { s with writer := s.writer.ended }

/-- The service after a run. -/
def run (attempt : Entry → StateM σ Outcome) (s : Service σ) (actions : List Action) : Service σ :=
  actions.foldl (step attempt) s

variable {attempt : Entry → StateM σ Outcome} {s : Service σ} {e : Entry}

theorem afterAttempt_of_none (h : s.writer.next? = none) : s.afterAttempt attempt = s := by
  simp [afterAttempt, h]

theorem afterAttempt_of_some (h : s.writer.next? = some e) :
    s.afterAttempt attempt =
      ⟨s.writer.told ((attempt e).run s.store).1, ((attempt e).run s.store).2,
        s.tried ++ [(e, ((attempt e).run s.store).1)]⟩ := by
  rw [afterAttempt, h]
  rfl

theorem run_append (s : Service σ) (first second : List Action) :
    s.run attempt (first ++ second) = (s.run attempt first).run attempt second :=
  List.foldl_append

end Service

theorem messages_concat (actions : List Action) (action : Action) :
    messages (actions ++ [action]) = messages actions ++ action.sent := by
  rw [messages, List.flatMap_append, List.flatMap_singleton]
  rfl

@[simp]
theorem storedOf_append (first second : List (Entry × Outcome)) :
    storedOf (first ++ second) = storedOf first ++ storedOf second :=
  List.filterMap_append

/-! ### Turns -/

/-- What becomes of an entry. -/
inductive Fate where
  | stored
  /-- The writer has tried it as often as it may. -/
  | givenUp
  /-- The store broke down. -/
  | crashed
deriving DecidableEq, Repr

/-- The turn of an entry: how often trying it failed, and what became of it in the end. -/
structure Turn where
  entry : Entry
  failures : Nat
  fate : Fate
deriving DecidableEq, Repr

/-- An entry that failed several times. -/
def failed (failures : Nat) (e : Entry) : List (Entry × Outcome) :=
  List.replicate failures (e, .failed)

theorem failed_succ (failures : Nat) (e : Entry) :
    failed (failures + 1) e = failed failures e ++ [(e, .failed)] :=
  List.replicate_succ'

theorem length_failed (failures : Nat) (e : Entry) : (failed failures e).length = failures :=
  List.length_replicate

theorem storedOf_failed (failures : Nat) (e : Entry) : storedOf (failed failures e) = [] := by
  simp [storedOf, failed]

namespace Turn

/-- The last attempt, if it was not another failure. -/
def last (entry : Entry) : Fate → List (Entry × Outcome)
  | .stored => [(entry, .stored)]
  | .givenUp => []
  | .crashed => [(entry, .crashed)]

/-- The attempts of a turn. -/
def attempts (turn : Turn) : List (Entry × Outcome) :=
  failed turn.failures turn.entry ++ last turn.entry turn.fate

/-- Whether a turn has as many attempts as it may: an entry is given up after all of them, and it
is not tried again once it is stored. -/
def Allowed (retries : Nat) (turn : Turn) : Prop :=
  match turn.fate with
  | .givenUp => turn.failures = retries + 1
  | _ => turn.failures ≤ retries

variable {retries : Nat} {turn : Turn} {turns : List Turn}

theorem Allowed.length_attempts_le (h : turn.Allowed retries) :
    turn.attempts.length ≤ retries + 1 := by
  unfold Allowed at h
  rw [attempts, List.length_append, length_failed]
  cases hfate : turn.fate <;> simp only [hfate] at h <;> simp [last] <;> omega

theorem storedOf_attempts (turn : Turn) :
    storedOf turn.attempts = if turn.fate = .stored then [turn.entry] else [] := by
  rw [attempts, storedOf_append, storedOf_failed]
  cases turn.fate <;> rfl

/-- What is stored in some turns are entries of these turns, each at most once and in order. -/
theorem storedOf_flatMap_sublist (turns : List Turn) :
    (storedOf (turns.flatMap attempts)).Sublist (turns.map entry) := by
  induction turns with
  | nil => exact .slnil
  | cons turn turns ih =>
    rw [List.flatMap_cons, storedOf_append, storedOf_attempts, List.map_cons]
    split
    · exact ih.cons_cons turn.entry
    · exact ih.cons turn.entry

end Turn

/-- What a run comes to, after `sent` was sent before the first stop: some turns have been taken,
and the first of the entries that are `waiting` has failed some times. -/
structure Accounted (retries : Nat) (sent : List Entry) (tried : List (Entry × Outcome))
    (running : Bool) (turns : List Turn) (waiting : List Entry) (failures : Nat) : Prop where
  allowed : ∀ turn ∈ turns, turn.Allowed retries
  failures_le : failures ≤ retries
  /-- Every entry has one turn, in the order of sending. -/
  sent_eq : turns.map Turn.entry ++ waiting = sent
  /-- Nothing else is tried. -/
  tried_eq : tried = turns.flatMap Turn.attempts ++ waiting.head?.elim [] (failed failures)
  /-- After the turn in which the store broke down there is none. -/
  not_crashed : ∀ turn ∈ turns.dropLast, turn.fate ≠ .crashed
  /-- The writer ends when no entry waits, or when the store breaks down. -/
  ended : running = false → tried = turns.flatMap Turn.attempts ∧
    (waiting = [] ∨ ∃ turn, turns.getLast? = some turn ∧ turn.fate = .crashed)

namespace Accounted

variable {retries failures : Nat} {sent waiting : List Entry} {tried : List (Entry × Outcome)}
  {running : Bool} {turns : List Turn}

theorem storedOf_sublist (h : Accounted retries sent tried running turns waiting failures) :
    (storedOf tried).Sublist sent := by
  have hwaiting : storedOf (waiting.head?.elim [] (failed failures)) = [] := by
    cases waiting.head? with
    | none => rfl
    | some e => exact storedOf_failed failures e
  rw [h.tried_eq, storedOf_append, hwaiting, List.append_nil, ← h.sent_eq]
  exact (Turn.storedOf_flatMap_sublist turns).trans (List.sublist_append_left _ _)

end Accounted

namespace Service

variable {σ : Type} {attempt : Entry → StateM σ Outcome} {s : Service σ} {retries : Nat}
  {msgs rest : List Message} {turns : List Turn} {e : Entry}

/-! ### A writer that runs -/

/-- The messages of the entries that had a turn. -/
def taken (turns : List Turn) : List Message :=
  turns.map fun turn => .record turn.entry

theorem beforeStop_taken_append (turns : List Turn) (rest : List Message) :
    beforeStop (taken turns ++ rest) = turns.map Turn.entry ++ beforeStop rest := by
  induction turns with
  | nil => rfl
  | cons turn turns ih => exact congrArg (turn.entry :: ·) ih

/-- Whether a service runs after some turns: what was sent and had no turn is in the queue. -/
structure Runs (retries : Nat) (msgs : List Message) (s : Service σ) (turns : List Turn) :
    Prop where
  running : s.writer.running = true
  retries_eq : s.writer.retries = retries
  failures_le : s.writer.failures ≤ retries
  msgs_eq : taken turns ++ s.writer.queue = msgs
  allowed : ∀ turn ∈ turns, turn.Allowed retries
  not_crashed : ∀ turn ∈ turns, turn.fate ≠ .crashed
  tried_eq : s.tried =
    turns.flatMap Turn.attempts ++ s.writer.next?.elim [] (failed s.writer.failures)
  /-- Only an entry at the head of the queue can have failed. -/
  idle : s.writer.next? = none → s.writer.failures = 0

/-- Whether a service has ended after some turns, with `rest` sent before or after that. -/
structure Over (retries : Nat) (msgs : List Message) (s : Service σ) (turns : List Turn)
    (rest : List Message) : Prop where
  running : s.writer.running = false
  queue_eq : s.writer.queue = []
  msgs_eq : taken turns ++ rest = msgs
  allowed : ∀ turn ∈ turns, turn.Allowed retries
  not_crashed : ∀ turn ∈ turns.dropLast, turn.fate ≠ .crashed
  tried_eq : s.tried = turns.flatMap Turn.attempts
  cause : rest.head? = some .stop ∨ ∃ turn, turns.getLast? = some turn ∧ turn.fate = .crashed

/-- Whether what was sent and tried so far accounts for the state of a service. -/
def Sound (retries : Nat) (msgs : List Message) (s : Service σ) : Prop :=
  (∃ turns, s.Runs retries msgs turns) ∨ ∃ turns rest, s.Over retries msgs turns rest

theorem head?_beforeStop_queue (w : Writer) : (beforeStop w.queue).head? = w.next? := by
  unfold Writer.next?
  cases w.queue with
  | nil => rfl
  | cons msg _ => cases msg <;> rfl

theorem exists_queue_eq_of_next? {w : Writer} (h : w.next? = some e) :
    ∃ rest, w.queue = .record e :: rest := by
  unfold Writer.next? at h
  split at h
  · next e' rest hqueue =>
    obtain rfl := Option.some.inj h
    exact ⟨rest, hqueue⟩
  · cases h

theorem next?_send {w : Writer} (hrunning : w.running = true) (h : w.next? = some e)
    (msg : Message) : (w.send msg).next? = some e := by
  obtain ⟨rest, hqueue⟩ := exists_queue_eq_of_next? h
  simp [Writer.next?, Writer.queue_send hrunning, hqueue]

theorem next?_eq_none_of_send {w : Writer} (hrunning : w.running = true) {msg : Message}
    (h : (w.send msg).next? = none) : w.next? = none := by
  cases hnext : w.next? with
  | none => rfl
  | some e => exact (next?_send hrunning hnext msg).symm.trans h

theorem Runs.accounted (h : s.Runs retries msgs turns) :
    Accounted retries (beforeStop msgs) s.tried s.writer.running turns
      (beforeStop s.writer.queue) s.writer.failures where
  allowed := h.allowed
  failures_le := h.failures_le
  sent_eq := by rw [← h.msgs_eq, beforeStop_taken_append]
  tried_eq := by rw [h.tried_eq, head?_beforeStop_queue]
  not_crashed := fun turn hturn => h.not_crashed turn (List.dropLast_subset _ hturn)
  ended := fun hrunning => by rw [h.running] at hrunning; cases hrunning

theorem Over.accounted (h : s.Over retries msgs turns rest) :
    Accounted retries (beforeStop msgs) s.tried s.writer.running turns (beforeStop rest) 0 where
  allowed := h.allowed
  failures_le := Nat.zero_le _
  sent_eq := by rw [← h.msgs_eq, beforeStop_taken_append]
  tried_eq := by
    rw [h.tried_eq]
    cases (beforeStop rest).head? <;> simp [failed]
  not_crashed := h.not_crashed
  ended := fun _ => by
    refine ⟨h.tried_eq, h.cause.imp_left fun hstop => ?_⟩
    cases rest with
    | nil => cases hstop
    | cons msg _ =>
      obtain rfl := Option.some.inj hstop
      rfl

/-! ### One action -/

/-- A turn that ends takes its entry from the queue. -/
theorem Runs.concat (h : s.Runs retries msgs turns) (turn : Turn)
    (hnext : s.writer.next? = some turn.entry) :
    taken (turns ++ [turn]) ++ s.writer.queue.tail = msgs := by
  obtain ⟨rest, hqueue⟩ := exists_queue_eq_of_next? hnext
  have hmsgs := h.msgs_eq
  rw [hqueue] at hmsgs ⊢
  simpa [taken] using hmsgs

/-- After a turn that is not the last one, the writer runs on. -/
theorem Runs.next (h : s.Runs retries msgs turns) (turn : Turn)
    (hnext : s.writer.next? = some turn.entry) (hallowed : turn.Allowed retries)
    (hfate : turn.fate ≠ .crashed) (store : σ) :
    Runs retries msgs
      ⟨{ s.writer with queue := s.writer.queue.tail, failures := 0 }, store,
        turns.flatMap Turn.attempts ++ turn.attempts⟩ (turns ++ [turn]) where
  running := h.running
  retries_eq := h.retries_eq
  failures_le := Nat.zero_le _
  msgs_eq := h.concat turn hnext
  allowed := List.forall_mem_append.2 ⟨h.allowed, List.forall_mem_singleton.2 hallowed⟩
  not_crashed := List.forall_mem_append.2 ⟨h.not_crashed, List.forall_mem_singleton.2 hfate⟩
  tried_eq := by
    dsimp only
    generalize Writer.next? _ = next
    cases next <;> simp [failed]
  idle := fun _ => rfl

theorem Runs.send (h : s.Runs retries msgs turns) (msg : Message) :
    Runs retries (msgs ++ [msg]) { s with writer := s.writer.send msg } turns := by
  have hmsgs : taken turns ++ (s.writer.send msg).queue = msgs ++ [msg] := by
    rw [Writer.queue_send h.running, ← List.append_assoc, h.msgs_eq]
  have hfailures : (s.writer.send msg).failures = s.writer.failures := by
    rw [Writer.send, if_pos h.running]
  have htried : s.tried = turns.flatMap Turn.attempts ++
      (s.writer.send msg).next?.elim [] (failed (s.writer.send msg).failures) := by
    rw [h.tried_eq, hfailures]
    cases hnext : s.writer.next? with
    | none =>
      rw [h.idle hnext]
      cases (s.writer.send msg).next? <;> rfl
    | some e => rw [next?_send h.running hnext]
  have hidle (hnone : (s.writer.send msg).next? = none) : (s.writer.send msg).failures = 0 := by
    rw [hfailures, h.idle (next?_eq_none_of_send h.running hnone)]
  refine ⟨?_, ?_, hfailures ▸ h.failures_le, hmsgs, h.allowed, h.not_crashed, htried, hidle⟩
  · rw [Writer.send, if_pos h.running]
    exact h.running
  · rw [Writer.send, if_pos h.running]
    exact h.retries_eq

/-- After another failure the entry stays in the queue. -/
theorem Runs.again (h : s.Runs retries msgs turns) (hnext : s.writer.next? = some e)
    (hlt : s.writer.failures < s.writer.retries) (store : σ) :
    Runs retries msgs
      ⟨{ s.writer with failures := s.writer.failures + 1 }, store,
        turns.flatMap Turn.attempts ++ failed (s.writer.failures + 1) e⟩ turns := by
  have hstays : ({ s.writer with failures := s.writer.failures + 1 } : Writer).next? = some e :=
    hnext
  refine ⟨h.running, h.retries_eq, h.retries_eq ▸ hlt, h.msgs_eq, h.allowed, h.not_crashed, ?_,
    fun hnone => ?_⟩
  · rw [hstays]
    rfl
  · rw [hstays] at hnone
    cases hnone

/-- The writer ends when the store breaks down. -/
theorem Runs.crash (h : s.Runs retries msgs turns) (hnext : s.writer.next? = some e) (store : σ) :
    let turn : Turn := ⟨e, s.writer.failures, .crashed⟩
    Over retries msgs
      ⟨{ s.writer with queue := [], failures := 0, running := false }, store,
        turns.flatMap Turn.attempts ++ turn.attempts⟩ (turns ++ [turn]) s.writer.queue.tail := by
  intro turn
  refine ⟨rfl, rfl, h.concat turn hnext, ?_, ?_, ?_, Or.inr ⟨turn, List.getLast?_concat, rfl⟩⟩
  · exact List.forall_mem_append.2 ⟨h.allowed, List.forall_mem_singleton.2 h.failures_le⟩
  · rw [List.dropLast_concat]
    exact h.not_crashed
  · rw [List.flatMap_append, List.flatMap_singleton]

theorem Runs.sound_attempt (h : s.Runs retries msgs turns) :
    Sound retries msgs (s.afterAttempt attempt) := by
  cases hnext : s.writer.next? with
  | none =>
    rw [afterAttempt_of_none hnext]
    exact Or.inl ⟨turns, h⟩
  | some e =>
    rw [afterAttempt_of_some hnext, h.tried_eq, hnext, Option.elim_some, List.append_assoc]
    generalize ((attempt e).run s.store).2 = store
    cases ((attempt e).run s.store).1 with
    | stored =>
      exact Or.inl ⟨_, h.next ⟨e, s.writer.failures, .stored⟩ hnext h.failures_le (by simp) store⟩
    | failed =>
      left
      rw [← failed_succ, Writer.told]
      split
      · next hlt => exact ⟨turns, h.again hnext hlt store⟩
      · next hle =>
        have hall : s.writer.failures = retries :=
          le_antisymm h.failures_le (h.retries_eq ▸ Nat.le_of_not_lt hle)
        have hruns := h.next ⟨e, retries + 1, .givenUp⟩ hnext rfl (by simp) store
        rw [Turn.attempts, Turn.last, List.append_nil] at hruns
        rw [hall]
        exact ⟨_, hruns⟩
    | crashed => exact Or.inr ⟨_, _, h.crash hnext store⟩

theorem Runs.sound_finish (h : s.Runs retries msgs turns) :
    Sound retries msgs { s with writer := s.writer.ended } := by
  unfold Writer.ended
  split
  · next rest hqueue =>
    right
    have hnext : s.writer.next? = none := by rw [Writer.next?, hqueue]
    have htried := h.tried_eq
    rw [hnext, Option.elim_none, List.append_nil] at htried
    exact ⟨turns, .stop :: rest, rfl, rfl, hqueue ▸ h.msgs_eq, h.allowed,
      fun turn hturn => h.not_crashed turn (List.dropLast_subset _ hturn), htried, Or.inl rfl⟩
  · exact Or.inl ⟨turns, h⟩

/-- What is sent to a service that has ended is lost. -/
theorem Over.send (h : s.Over retries msgs turns rest) (msg : Message) :
    Over retries (msgs ++ [msg]) { s with writer := s.writer.send msg } turns (rest ++ [msg]) := by
  rw [Writer.send_of_not_running h.running]
  refine ⟨h.running, h.queue_eq, ?_, h.allowed, h.not_crashed, h.tried_eq, ?_⟩
  · rw [← List.append_assoc, h.msgs_eq]
  · refine h.cause.imp_left fun hstop => ?_
    rw [List.head?_append, hstop, Option.some_or]

/-- A service that has ended tries nothing any more. -/
theorem Over.attempt_eq (h : s.Over retries msgs turns rest) : s.afterAttempt attempt = s := by
  have hnext : s.writer.next? = none := by rw [Writer.next?, h.queue_eq]
  exact afterAttempt_of_none hnext

/-- A service that has ended ends no more. -/
theorem Over.finish_eq (h : s.Over retries msgs turns rest) :
    { s with writer := s.writer.ended } = s := by
  have hended : s.writer.ended = s.writer := by rw [Writer.ended, h.queue_eq]
  rw [hended]

theorem Sound.step (h : s.Sound retries msgs) (action : Action) :
    Sound retries (msgs ++ action.sent) (s.step attempt action) := by
  cases action with
  | send msg =>
    obtain ⟨turns, h⟩ | ⟨turns, rest, h⟩ := h
    · exact Or.inl ⟨turns, h.send msg⟩
    · exact Or.inr ⟨turns, rest ++ [msg], h.send msg⟩
  | attempt =>
    rw [Action.sent, List.append_nil, Service.step]
    obtain ⟨turns, hruns⟩ | ⟨turns, rest, hover⟩ := h
    · exact hruns.sound_attempt
    · rw [hover.attempt_eq]
      exact Or.inr ⟨turns, rest, hover⟩
  | finish =>
    rw [Action.sent, List.append_nil, Service.step]
    obtain ⟨turns, hruns⟩ | ⟨turns, rest, hover⟩ := h
    · exact hruns.sound_finish
    · rw [hover.finish_eq]
      exact Or.inr ⟨turns, rest, hover⟩

/-! ### Runs -/

theorem sound_start (retries : Nat) (store : σ) : Sound retries [] (start retries store) :=
  Or.inl ⟨[], rfl, rfl, Nat.zero_le _, rfl, nofun, nofun, rfl, fun _ => rfl⟩

theorem sound_run (attempt : Entry → StateM σ Outcome) (retries : Nat) (store : σ)
    (actions : List Action) :
    Sound retries (messages actions) ((start retries store).run attempt actions) := by
  induction actions using List.reverseRecOn with
  | nil => exact sound_start retries store
  | append_singleton actions action ih =>
    rw [messages_concat, run_append]
    exact ih.step action

theorem Sound.accounted (h : s.Sound retries msgs) :
    ∃ turns waiting failures,
      Accounted retries (beforeStop msgs) s.tried s.writer.running turns waiting failures := by
  obtain ⟨turns, h⟩ | ⟨turns, rest, h⟩ := h
  · exact ⟨turns, _, _, h.accounted⟩
  · exact ⟨turns, _, _, h.accounted⟩

end Service

end PocketCalculator
