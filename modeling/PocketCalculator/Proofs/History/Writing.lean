import PocketCalculator.History.Faulty
import PocketCalculator.Proofs.History.Service
import PocketCalculator.Proofs.Host.Machine

/-!
# What a writer writes

Nothing but the attempts of the writer touches its store, so the store is known from what was
tried. Whoever shuts a writer down waits until it has ended, which it does in the end: the entries
that were sent before have then been stored, given up, or lost when the store broke down. A store
that fails a certain number of times loses the entries that come first, and no other.
-/

namespace PocketCalculator

/-! ### Attempts one after the other -/

section Tries

variable {σ : Type} {attempt : Entry → StateM σ Outcome} {store store' : σ}
  {tried : List (Entry × Outcome)}

/-- Whether `tried` is what trying its entries one after the other answers, with `store'` in the
end. -/
def Tries (attempt : Entry → StateM σ Outcome) (store : σ) (tried : List (Entry × Outcome))
    (store' : σ) : Prop :=
  ((tried.map Prod.fst).mapM attempt).run store = (tried.map Prod.snd, store')

theorem tries_cons {e : Entry} {o : Outcome} :
    Tries attempt store ((e, o) :: tried) store' ↔
      ((attempt e).run store).1 = o ∧ Tries attempt ((attempt e).run store).2 tried store' := by
  rw [Tries, List.map_cons, run_mapM_cons, Tries, List.map_cons, Prod.mk.injEq, List.cons.injEq,
    and_assoc, Prod.ext_iff]

theorem Tries.concat (h : Tries attempt store tried store') (e : Entry) :
    Tries attempt store (tried ++ [(e, ((attempt e).run store').1)])
      ((attempt e).run store').2 := by
  rw [Tries] at h ⊢
  rw [List.map_append, run_mapM_append, h, List.map_append]
  rfl

/-- The ledger in a store that failed attempts leave alone has what was stored, in order. -/
theorem Tries.ledger_eq (h : Tries attempt store tried store') {ledger : σ → Ledger}
    (hfailed : ∀ e store, ((attempt e).run store).1 = .failed →
      ledger ((attempt e).run store).2 = ledger store)
    (hstored : ∀ e store, ((attempt e).run store).1 = .stored →
      ledger ((attempt e).run store).2 = (ledger store).insert e)
    (hcrashed : ∀ p ∈ tried, p.2 ≠ .crashed) :
    ledger store' = (storedOf tried).foldl Ledger.insert (ledger store) := by
  induction tried generalizing store with
  | nil =>
    obtain rfl := congrArg Prod.snd h
    rfl
  | cons p tried ih =>
    obtain ⟨e, o⟩ := p
    obtain ⟨hcrash, hcrashed⟩ := List.forall_mem_cons.1 hcrashed
    obtain ⟨ho, hrest⟩ := tries_cons.1 h
    rw [ih hrest hcrashed]
    cases o with
    | stored => rw [hstored e store ho]; rfl
    | failed => rw [hfailed e store ho]; rfl
    | crashed => exact absurd rfl hcrash

end Tries

/-! ### A store with faults -/

/-- Whether the first `failures` attempts failed, and all others stored their entry. -/
def FailsFirst : Nat → List (Entry × Outcome) → Prop
  | _, [] => True
  | 0, (_, o) :: tried => o = .stored ∧ FailsFirst 0 tried
  | failures + 1, (_, o) :: tried => o = .failed ∧ FailsFirst failures tried

section FailsFirst

variable {retries failures : Nat} {first tried : List (Entry × Outcome)} {turns : List Turn}

theorem failsFirst_append :
    FailsFirst failures (first ++ tried) ↔
      FailsFirst failures first ∧ FailsFirst (failures - first.length) tried := by
  induction first generalizing failures with
  | nil => simp [FailsFirst]
  | cons p first ih =>
    cases failures with
    | zero => simp [FailsFirst, ih, and_assoc]
    | succ failures => simp [FailsFirst, ih, and_assoc]

theorem FailsFirst.le_of_failed {n : Nat} {e : Entry} (h : FailsFirst failures (failed n e)) :
    n ≤ failures := by
  induction n generalizing failures with
  | zero => exact Nat.zero_le _
  | succ n ih =>
    cases failures with
    | zero => exact absurd h.1 nofun
    | succ failures => exact Nat.succ_le_succ (ih h.2)

theorem FailsFirst.eq_zero {e : Entry} (h : FailsFirst failures [(e, .stored)]) :
    failures = 0 := by
  cases failures with
  | zero => rfl
  | succ failures => exact absurd h.1 nofun

theorem FailsFirst.ne_crashed (h : FailsFirst failures tried) : ∀ p ∈ tried, p.2 ≠ .crashed := by
  induction tried generalizing failures with
  | nil => exact nofun
  | cons p tried ih =>
    obtain ⟨e, o⟩ := p
    cases failures with
    | zero => exact List.forall_mem_cons.2 ⟨fun hp => (nomatch h.1.symm.trans hp), ih h.2⟩
    | succ failures => exact List.forall_mem_cons.2 ⟨fun hp => (nomatch h.1.symm.trans hp), ih h.2⟩

theorem FailsFirst.not_crashed (h : FailsFirst failures (turns.flatMap Turn.attempts)) :
    ∀ turn ∈ turns, turn.fate ≠ .crashed := by
  intro turn hturn hfate
  have hlast : (turn.entry, Outcome.crashed) ∈ turn.attempts := by
    rw [Turn.attempts, hfate]
    exact List.mem_append_right _ List.mem_cons_self
  exact h.ne_crashed _ (List.mem_flatMap.2 ⟨turn, hturn, hlast⟩) rfl

/-- Every turn but one that stores its entry uses up all attempts that an entry has, so the entries
that are lost come first. -/
theorem storedOf_turns (hallowed : ∀ turn ∈ turns, turn.Allowed retries)
    (hcrashed : ∀ turn ∈ turns, turn.fate ≠ .crashed)
    (hfails : FailsFirst failures (turns.flatMap Turn.attempts)) :
    storedOf (turns.flatMap Turn.attempts) =
        (turns.map Turn.entry).drop (failures / (retries + 1)) ∧
      failures - (turns.flatMap Turn.attempts).length =
        failures - turns.length * (retries + 1) := by
  induction turns generalizing failures with
  | nil => simp [storedOf]
  | cons turn turns ih =>
    obtain ⟨e, n, fate⟩ := turn
    obtain ⟨hturn, hallowed⟩ := List.forall_mem_cons.1 hallowed
    obtain ⟨hcrash, hcrashed⟩ := List.forall_mem_cons.1 hcrashed
    rw [List.flatMap_cons, failsFirst_append] at hfails
    obtain ⟨hfirst, hrest⟩ := hfails
    obtain ⟨hstored, hleft⟩ := ih hallowed hcrashed hrest
    rw [List.flatMap_cons, storedOf_append, Turn.storedOf_attempts, hstored, List.length_append,
      ← Nat.sub_sub, hleft, List.length_cons, Nat.add_mul, List.map_cons]
    cases fate with
    | stored =>
      obtain ⟨hfailed, hlast⟩ := failsFirst_append.1 hfirst
      have hzero : failures - (failed n e).length = 0 := hlast.eq_zero
      rw [length_failed] at hzero
      have hle : failures ≤ retries := le_trans (Nat.le_of_sub_eq_zero hzero) hturn
      have hlength : (Turn.attempts ⟨e, n, .stored⟩).length = n + 1 := by
        rw [Turn.attempts, List.length_append, length_failed]
        rfl
      have hnone : failures - (n + 1) = 0 := by omega
      rw [hlength, hnone, Nat.zero_div, Nat.div_eq_of_lt (Nat.lt_succ_of_le hle)]
      exact ⟨rfl, by omega⟩
    | givenUp =>
      obtain rfl : n = retries + 1 := hturn
      obtain ⟨hfailed, -⟩ := failsFirst_append.1 hfirst
      have hle := hfailed.le_of_failed
      have hlength : (Turn.attempts ⟨e, retries + 1, .givenUp⟩).length = retries + 1 := by
        rw [Turn.attempts, List.length_append, length_failed]
        rfl
      have hdiv : failures / (retries + 1) = (failures - (retries + 1)) / (retries + 1) + 1 := by
        rw [Nat.div_eq_sub_div (Nat.succ_pos _) hle]
      rw [hlength, hdiv, List.drop_succ_cons]
      exact ⟨rfl, by omega⟩
    | crashed => exact absurd rfl hcrash

/-- When the writer has ended, the entries that are lost are those that come first, as many as there
are failures for all of their attempts. -/
theorem Accounted.of_failsFirst {sent waiting : List Entry} {left : Nat}
    (h : Accounted retries sent tried false turns waiting left)
    (hfails : FailsFirst failures tried) :
    storedOf tried = sent.drop (min sent.length (failures / (retries + 1))) ∧
      failures - tried.length = failures - min failures (sent.length * (retries + 1)) := by
  obtain ⟨htried, hover⟩ := h.ended rfl
  rw [htried] at hfails ⊢
  have hcrashed := hfails.not_crashed
  have hwaiting : waiting = [] := hover.resolve_right fun ⟨turn, hlast, hfate⟩ =>
    hcrashed turn (List.mem_of_getLast? hlast) hfate
  have hsent : turns.map Turn.entry = sent := by
    rw [← h.sent_eq, hwaiting, List.append_nil]
  have hlength : turns.length = sent.length := by rw [← hsent, List.length_map]
  obtain ⟨hstored, hleft⟩ := storedOf_turns h.allowed hcrashed hfails
  rw [hstored, hleft, hsent, hlength]
  exact ⟨List.drop_eq_drop_iff.2 (by omega), by omega⟩

end FailsFirst

namespace FaultyLedger

theorem run_attempt (e : Entry) (store : FaultyLedger) :
    (attempt e).run store =
      if store.fatal = some e.formula then (.crashed, store)
      else if 0 < store.failures then (.failed, { store with failures := store.failures - 1 })
      else (.stored, { store with ledger := store.ledger.insert e }) := by
  unfold attempt
  rw [StateT.run_bind]
  show StateT.run (if store.fatal = some e.formula then _
    else if 0 < store.failures then _ else _) store = _
  split_ifs <;> rfl

theorem ledger_of_failed (e : Entry) (store : FaultyLedger)
    (h : ((attempt e).run store).1 = .failed) :
    ((attempt e).run store).2.ledger = store.ledger := by
  rw [run_attempt] at h ⊢
  split_ifs at h ⊢
  rfl

theorem ledger_of_stored (e : Entry) (store : FaultyLedger)
    (h : ((attempt e).run store).1 = .stored) :
    ((attempt e).run store).2.ledger = store.ledger.insert e := by
  rw [run_attempt] at h ⊢
  split_ifs at h ⊢
  rfl

theorem of_tries {tried : List (Entry × Outcome)} {l : Ledger} {failures : Nat}
    {store : FaultyLedger} (h : Tries attempt ⟨l, failures, none⟩ tried store) :
    FailsFirst failures tried ∧
      store = ⟨(storedOf tried).foldl Ledger.insert l, failures - tried.length, none⟩ := by
  induction tried generalizing l failures with
  | nil => exact ⟨trivial, (congrArg Prod.snd h).symm⟩
  | cons p tried ih =>
    obtain ⟨e, o⟩ := p
    obtain ⟨ho, hrest⟩ := tries_cons.1 h
    cases failures with
    | zero =>
      obtain rfl : Outcome.stored = o := ho
      obtain ⟨hfails, hstore⟩ := @ih (l.insert e) 0 hrest
      rw [Nat.zero_sub] at hstore
      exact ⟨⟨rfl, hfails⟩, hstore.trans (by rw [Nat.zero_sub]; rfl)⟩
    | succ failures =>
      obtain rfl : Outcome.failed = o := ho
      obtain ⟨hfails, hstore⟩ := @ih l failures hrest
      refine ⟨⟨rfl, hfails⟩, hstore.trans ?_⟩
      rw [List.length_cons, Nat.add_sub_add_right]
      rfl

end FaultyLedger

namespace Service

variable {σ : Type} {attempt : Entry → StateM σ Outcome} {s : Service σ} {retries : Nat}
  {actions : List Action}

/-! ### Shutting down -/

theorem tries_run (attempt : Entry → StateM σ Outcome) (retries : Nat) (store : σ)
    (actions : List Action) :
    Tries attempt store ((start retries store).run attempt actions).tried
      ((start retries store).run attempt actions).store := by
  induction actions using List.reverseRecOn with
  | nil => rfl
  | append_singleton actions action ih =>
    rw [run_append]
    cases action with
    | send msg => exact ih
    | attempt =>
      show Tries _ _ (afterAttempt attempt _).tried (afterAttempt attempt _).store
      cases hnext : ((start retries store).run attempt actions).writer.next? with
      | none =>
        rw [afterAttempt_of_none hnext]
        exact ih
      | some e =>
        rw [afterAttempt_of_some hnext]
        exact ih.concat e
    | finish => exact ih

/-- Draining a writer is a run of its own: attempts until no entry is left, and the end. -/
theorem exists_drain_eq (attempt : Entry → StateM σ Outcome) (s : Service σ) :
    ∃ n, let last := s.run attempt (List.replicate n .attempt)
      last.writer.next? = none ∧
        (s.writer.drain attempt fun _ _ => pure ()).run s.store =
          (last.writer.ended, last.store) := by
  match h : s.writer.next? with
  | none => exact ⟨0, h, by rw [Writer.drain_of_next?_eq_none _ _ h]; rfl⟩
  | some e =>
    obtain ⟨n, hnone, hdrain⟩ := exists_drain_eq attempt (s.afterAttempt attempt)
    refine ⟨n + 1, hnone, ?_⟩
    rw [Writer.drain_of_next?_eq_some _ _ h, run_bind_of_fst_eq rfl, List.replicate_succ]
    show _ = (((s.afterAttempt attempt).run attempt (List.replicate n .attempt)).writer.ended,
      ((s.afterAttempt attempt).run attempt (List.replicate n .attempt)).store)
    rw [← hdrain, afterAttempt_of_some h]
    rfl
termination_by (s.writer.queue.length, s.writer.retries - s.writer.failures)
decreasing_by
  rw [afterAttempt_of_some h]
  exact Writer.told_lt h _

theorem stop_not_mem_taken (turns : List Turn) : Message.stop ∉ taken turns := by
  simp [taken]

/-- A service to which a stop was sent has ended when it has no entry to try and comes to the
stop. -/
theorem Sound.running_ended {msgs : List Message} (h : s.Sound retries msgs)
    (hstop : .stop ∈ msgs) (hnext : s.writer.next? = none) : s.writer.ended.running = false := by
  obtain ⟨turns, hruns⟩ | ⟨turns, rest, hover⟩ := h
  · cases hqueue : s.writer.queue with
    | nil =>
      have hmsgs := hruns.msgs_eq
      rw [hqueue, List.append_nil] at hmsgs
      exact absurd (hmsgs ▸ hstop) (stop_not_mem_taken turns)
    | cons msg rest =>
      cases msg with
      | record e =>
        rw [Writer.next?, hqueue] at hnext
        cases hnext
      | stop => rw [Writer.ended, hqueue]
  · rw [Writer.ended, hover.queue_eq]
    exact hover.running

/-- Whoever shuts a writer down does not wait forever: the writer ends by itself after some
attempts, and what it does until then is what draining it does. -/
theorem exists_shutDown (attempt : Entry → StateM σ Outcome) (retries : Nat) (store : σ)
    (hstop : .stop ∈ messages actions) :
    ∃ n, let s := (start retries store).run attempt actions
      let ended := s.run attempt (List.replicate n .attempt ++ [.finish])
      ended.writer.running = false ∧
        (s.writer.drain attempt fun _ _ => pure ()).run s.store = (ended.writer, ended.store) := by
  obtain ⟨n, hnext, hdrain⟩ := exists_drain_eq attempt ((start retries store).run attempt actions)
  refine ⟨n, ?_⟩
  dsimp only
  rw [run_append]
  have hsound := sound_run attempt retries store (actions ++ List.replicate n .attempt)
  rw [run_append] at hsound
  refine ⟨hsound.running_ended ?_ hnext, hdrain⟩
  rw [messages, List.flatMap_append]
  exact List.mem_append_left _ hstop

/-! ### The account of a run -/

/-- A run on a store that never breaks down and whose first attempts fail loses the entries that
come first, as many as there are attempts for. -/
theorem run_faulty (retries : Nat) (l : Ledger) (failures : Nat) (actions : List Action) :
    let sent := beforeStop (messages actions)
    let s := (start retries (⟨l, failures, none⟩ : FaultyLedger)).run FaultyLedger.attempt actions
    s.writer.running = false →
      storedOf s.tried = sent.drop (min sent.length (failures / (retries + 1))) ∧
      s.store = ⟨(storedOf s.tried).foldl Ledger.insert l,
        failures - min failures (sent.length * (retries + 1)), none⟩ := by
  intro sent s hrunning
  obtain ⟨hfails, hstore⟩ := FaultyLedger.of_tries
    (tries_run FaultyLedger.attempt retries ⟨l, failures, none⟩ actions)
  obtain ⟨turns, waiting, left, h⟩ :=
    (sound_run FaultyLedger.attempt retries ⟨l, failures, none⟩ actions).accounted
  rw [hrunning] at h
  obtain ⟨hstored, hleft⟩ := h.of_failsFirst hfails
  rw [hleft] at hstore
  exact ⟨hstored, hstore⟩

/-- Whatever is sent to a writer and whenever it goes on, on every store:

* the entries that were sent before the first stop have their turns one after the other, in the
  order of sending, each with at most `retries + 1` attempts, and nothing else is tried; if the
  writer has ended, none of them waits, unless the store broke down;
* what was stored is a part of what was sent, in order;
* nothing else touches the store, so that a ledger in it that failed attempts leave alone has what
  was stored;
* after a stop the writer ends by itself, in the way of `Writer.drain`;
* of a store whose first attempts fail, the entries that come first are lost, and no other. -/
theorem accounted_run (attempt : Entry → StateM σ Outcome) (retries : Nat) (store : σ)
    (actions : List Action) :
    let sent := beforeStop (messages actions)
    let s := (start retries store).run attempt actions
    (∃ turns waiting failures,
      Accounted retries sent s.tried s.writer.running turns waiting failures ∧
        ∀ turn ∈ turns, turn.attempts.length ≤ retries + 1) ∧
      (storedOf s.tried).Sublist sent ∧
      Tries attempt store s.tried s.store ∧
      (∀ ledger : σ → Ledger,
        (∀ e store, ((attempt e).run store).1 = .failed →
          ledger ((attempt e).run store).2 = ledger store) →
        (∀ e store, ((attempt e).run store).1 = .stored →
          ledger ((attempt e).run store).2 = (ledger store).insert e) →
        (∀ p ∈ s.tried, p.2 ≠ .crashed) →
        ledger s.store = (storedOf s.tried).foldl Ledger.insert (ledger store)) ∧
      (.stop ∈ messages actions → ∃ n,
        let ended := s.run attempt (List.replicate n .attempt ++ [.finish])
        ended.writer.running = false ∧
          (s.writer.drain attempt fun _ _ => pure ()).run s.store = (ended.writer, ended.store)) ∧
      ∀ (l : Ledger) (failures : Nat),
        let faulty := (start retries ⟨l, failures, none⟩).run FaultyLedger.attempt actions
        faulty.writer.running = false →
          storedOf faulty.tried = sent.drop (min sent.length (failures / (retries + 1))) ∧
          faulty.store = ⟨(storedOf faulty.tried).foldl Ledger.insert l,
            failures - min failures (sent.length * (retries + 1)), none⟩ := by
  intro sent s
  obtain ⟨turns, waiting, failures, h⟩ := (sound_run attempt retries store actions).accounted
  have htries := tries_run attempt retries store actions
  exact ⟨⟨turns, waiting, failures, h, fun turn hturn => (h.allowed turn hturn).length_attempts_le⟩,
    h.storedOf_sublist, htries, fun ledger => htries.ledger_eq,
    exists_shutDown attempt retries store, fun l failures => run_faulty retries l failures actions⟩

/-- Two entries and a stop are sent while the store fails three times: the first entry is lost, and
what is sent after the stop as well. -/
theorem accounted_run_two_tries :
    let lost : Entry := ⟨none, ['1'], ['1'], 0⟩
    let kept : Entry := ⟨none, ['2'], ['2'], 0⟩
    let actions : List Action :=
      [.send (.record lost), .attempt, .send (.record kept), .attempt, .send .stop, .attempt,
        .send (.record lost), .attempt, .finish]
    let s := (start 1 ⟨[], 3, none⟩).run FaultyLedger.attempt actions
    s.writer.running = false ∧ .stop ∈ messages actions ∧ (∀ p ∈ s.tried, p.2 ≠ .crashed) ∧
      storedOf s.tried = [kept] ∧ s.store.ledger = [{ kept with id := some 1 }] ∧
      s.store = ⟨[{ kept with id := some 1 }], 0, none⟩ ∧
      ∃ n, ((s.run FaultyLedger.attempt
        (List.replicate n .attempt ++ [.finish])).writer.running = false) := by
  intro lost kept actions s
  have hrunning : s.writer.running = false := by decide
  have hstop : .stop ∈ messages actions := by decide
  have hcrashed : ∀ p ∈ s.tried, p.2 ≠ .crashed := by decide
  obtain ⟨-, -, -, hledger, hover, hfaulty⟩ :=
    accounted_run FaultyLedger.attempt 1 ⟨[], 3, none⟩ actions
  obtain ⟨hstored, hstore⟩ := hfaulty [] 3 hrunning
  have hledger := hledger FaultyLedger.ledger FaultyLedger.ledger_of_failed
    FaultyLedger.ledger_of_stored hcrashed
  obtain ⟨n, hn, -⟩ := hover hstop
  have hkept : storedOf s.tried = [kept] := hstored
  refine ⟨hrunning, hstop, hcrashed, hkept, ?_, ?_, n, hn⟩
  · exact hledger.trans (by rw [hkept]; rfl)
  · exact hstore.trans (by rw [hkept]; rfl)

end Service

end PocketCalculator
