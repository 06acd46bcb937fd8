import PocketCalculator.History.Ledger

/-!
# The history writer

The writer takes entries from a queue, one at a time and in the order in which they were sent, and
tries each until the store takes it or it has failed too often. A stop that is sent ends the writer
when everything before it is done. The writer itself does not touch the store: it says which entry
comes next and is told what became of it.
-/

namespace PocketCalculator

/-- What became of an attempt to store an entry. -/
inductive Outcome where
  | stored
  | failed
  /-- The store broke down, and the writer with it. -/
  | crashed
deriving DecidableEq, Repr

/-- What is sent to the writer. -/
inductive Message where
  | record (e : Entry)
  | stop
deriving DecidableEq, Repr

/-- A writer between two attempts. -/
structure Writer where
  /-- How often an entry is tried again. -/
  retries : Nat
  queue : List Message := []
  /-- How often the first entry of the queue has failed. -/
  failures : Nat := 0
  running : Bool := true
deriving DecidableEq, Repr

namespace Writer

/-- Sends a message. A writer that has ended takes none. -/
def send (w : Writer) (msg : Message) : Writer :=
  if w.running then { w with queue := w.queue ++ [msg] } else w

theorem queue_send {w : Writer} (h : w.running) (msg : Message) :
    (w.send msg).queue = w.queue ++ [msg] := by
  simp [send, h]

theorem send_of_not_running {w : Writer} (h : w.running = false) (msg : Message) :
    w.send msg = w := by
  simp [send, h]

/-- Sends several messages. -/
def sendAll (w : Writer) (msgs : List Message) : Writer :=
  msgs.foldl send w

/-- The entry that has to be tried next. -/
def next? (w : Writer) : Option Entry :=
  match w.queue with
  | .record e :: _ => some e
  | _ => none

/-- The writer after it has been told about the entry that it tried. -/
def told (w : Writer) (o : Outcome) : Writer :=
  match o with
  | .stored => { w with queue := w.queue.tail, failures := 0 }
  | .failed =>
    if w.failures < w.retries then { w with failures := w.failures + 1 }
    else { w with queue := w.queue.tail, failures := 0 }
  | .crashed => { w with queue := [], failures := 0, running := false }

/-- Ends the writer if it has come to a stop; what was sent after it is lost. -/
def ended (w : Writer) : Writer :=
  match w.queue with
  | .stop :: _ => { w with queue := [], failures := 0, running := false }
  | _ => w

/-- After every attempt there is less to do: fewer messages, or fewer tries that are left. -/
theorem told_lt {w : Writer} {e : Entry} (h : w.next? = some e) (o : Outcome) :
    Prod.Lex (· < ·) (· < ·) ((w.told o).queue.length, (w.told o).retries - (w.told o).failures)
      (w.queue.length, w.retries - w.failures) := by
  have hq : 0 < w.queue.length := by
    unfold next? at h
    split at h
    · next hw => simp [hw]
    · simp at h
  rcases o with _ | _ | _
  · exact .left _ _ (by simp [told]; omega)
  · simp only [told]
    split
    · exact .right _ (by simp only; omega)
    · exact .left _ _ (by simp; omega)
  · exact .left _ _ (by simpa [told] using hq)

section Drain

variable {m : Type → Type} [Monad m]

/-- Lets the writer do everything that it has been sent. `attempt` tries to store an entry, and
`note` is told about every outcome together with the writer before it. -/
def drain (attempt : Entry → m Outcome) (note : Writer → Outcome → m Unit) (w : Writer) :
    m Writer :=
  match _h : w.next? with
  | none => pure w.ended
  | some e => do
    let o ← attempt e
    note w o
    drain attempt note (w.told o)
termination_by (w.queue.length, w.retries - w.failures)
decreasing_by exact told_lt _h o

theorem drain_of_next?_eq_none (attempt : Entry → m Outcome) (note : Writer → Outcome → m Unit)
    {w : Writer} (h : w.next? = none) : w.drain attempt note = pure w.ended := by
  rw [drain]
  split
  · rfl
  · next h' => simp [h] at h'

theorem drain_of_next?_eq_some (attempt : Entry → m Outcome) (note : Writer → Outcome → m Unit)
    {w : Writer} {e : Entry} (h : w.next? = some e) :
    w.drain attempt note = (do
      let o ← attempt e
      note w o
      (w.told o).drain attempt note) := by
  rw [drain]
  split
  · next h' => simp [h] at h'
  · next e' h' =>
    rw [h] at h'
    cases h'
    rfl

end Drain

end Writer

end PocketCalculator
