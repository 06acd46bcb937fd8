import PocketCalculator.Proofs.History.FileStore

/-!
# The store in a file refines the store in memory

Whatever is inserted, listed and cleared, a store in a file answers what a store in memory does, as
long as the files of the machine work: after every call the file spells the ledger in memory
(`run_answer_file`). A store is opened by giving its path, so it does not matter how often that is
done.
-/

namespace PocketCalculator

/-! ### Numbers in ledgers -/

namespace Ledger

variable {l : Ledger} {e old : Entry}

theorem mem_replaceFirst {id : Int} (h : old ∈ l.replaceFirst id e) : old = e ∨ old ∈ l := by
  induction l with
  | nil => exact Or.inr h
  | cons first rest ih =>
    rw [replaceFirst] at h
    split at h
    · rcases List.mem_cons.1 h with h | h
      · exact Or.inl h
      · exact Or.inr (List.mem_cons_of_mem _ h)
    · rcases List.mem_cons.1 h with h | h
      · exact Or.inr (h ▸ List.mem_cons_self)
      · exact (ih h).imp_right (List.mem_cons_of_mem _)

/-- Whether the numbers of a ledger with an entry inserted fit its records: there is a number left
for an entry without an id. -/
structure Takes (l : Ledger) (e : Entry) : Prop where
  fits : e.Fits
  id_ne : e.id = none → ∀ old ∈ l, old.id ≠ some Entry.maxInt

theorem bounds_nextId (h : ∀ e ∈ l, e.Fits) (hmax : ∀ e ∈ l, e.id ≠ some Entry.maxInt) :
    Entry.minInt ≤ l.nextId ∧ l.nextId ≤ Entry.maxInt := by
  unfold nextId
  cases hmem : (l.filterMap Entry.id).max? with
  | none => decide
  | some id =>
    obtain ⟨e, he, hid⟩ := List.mem_filterMap.1 (List.max?_mem hmem)
    have hbounds := (h e he).id id hid
    have hne : id ≠ Entry.maxInt := fun heq => hmax e he (heq ▸ hid)
    rw [Option.getD_some]
    omega

theorem fits_withId (h : ∀ e ∈ l, e.Fits) (he : l.Takes e) : (l.withId e).Fits := by
  unfold withId
  split
  · exact he.fits
  · rename_i hid
    refine ⟨fun id heq => ?_, he.fits.time⟩
    obtain rfl := Option.some.inj heq
    exact bounds_nextId h (he.id_ne hid)

theorem fits_insert (h : ∀ e ∈ l, e.Fits) (he : l.Takes e) : ∀ e' ∈ l.insert e, e'.Fits := by
  intro e' he'
  unfold insert at he'
  split at he'
  · split at he'
    · rcases mem_replaceFirst he' with rfl | hmem
      · exact he.fits
      · exact h e' hmem
    · rcases List.mem_append.1 he' with hmem | hmem
      · exact h e' hmem
      · exact List.mem_singleton.1 hmem ▸ he.fits
  · rcases List.mem_append.1 he' with hmem | hmem
    · exact h e' hmem
    · exact List.mem_singleton.1 hmem ▸ fits_withId h he

end Ledger

namespace Store

/-! ### Calls -/

/-- What is asked of a store. -/
inductive Call where
  | insert (e : Entry)
  | entries
  | clear
deriving DecidableEq, Repr

/-- What a store answers. -/
inductive Answer where
  | inserted (result : Except StoreError Entry)
  | listed (result : Except StoreError (List Entry))
  | cleared (result : Except StoreError Unit)

/-- Asks a store. -/
def answer {m : Type → Type} [Monad m] (store : Store m) : Call → m Answer
  | .insert e => .inserted <$> store.insert e
  | .entries => .listed <$> store.entries
  | .clear => .cleared <$> store.clear

/-- Asks a store one question after the other. -/
def answers {m : Type → Type} [Monad m] (store : Store m) (calls : List Call) : m (List Answer) :=
  calls.mapM store.answer

/-- Whether the file of a store could not be read, written or removed. -/
def Answer.Refused (a : Answer) : Prop :=
  ∃ path, a = .inserted (.error (.file path)) ∨ a = .listed (.error (.file path)) ∨
    a = .cleared (.error (.file path))

/-- The ledger after a call. -/
def Call.after (l : Ledger) : Call → Ledger
  | .insert e => l.insert e
  | .entries => l
  | .clear => []

/-- The answer of a ledger to a call. -/
def Call.answerOf (l : Ledger) : Call → Answer
  | .insert e => .inserted (.ok (l.withId e))
  | .entries => .listed (.ok l.newestFirst)
  | .clear => .cleared (.ok ())

/-- Whether a ledger can take what a call inserts. -/
def Call.Admissible (l : Ledger) : Call → Prop
  | .insert e => l.Takes e
  | _ => True

/-- Whether the ledgers that arise from a ledger in some calls can take what the calls insert. -/
def AllAdmissible : Ledger → List Call → Prop
  | _, [] => True
  | l, call :: calls => call.Admissible l ∧ AllAdmissible (call.after l) calls

variable {machine : Machine} {path : Path} {l : Ledger} {call : Call} {calls : List Call}

theorem run_answer_memory (l : Ledger) (call : Call) :
    (memory.answer call).run l = (call.answerOf l, call.after l) := by
  cases call <;> rfl

theorem fits_after (h : ∀ e ∈ l, e.Fits) (hcall : call.Admissible l) :
    ∀ e ∈ call.after l, e.Fits := by
  cases call with
  | insert e => exact Ledger.fits_insert h hcall
  | entries => exact h
  | clear => exact fun _ he => nomatch he

/-! ### One call -/

/-- A call is refused, or it is answered from the ledger and the file holds the ledger after it. -/
theorem run_answer_file (h : machine.disk.Holds path l) (hfits : ∀ e ∈ l, e.Fits) (call : Call) :
    let ran := ((file Machine.host path).answer call).run machine
    ran.1.Refused ∨ ran.1 = call.answerOf l ∧ ran.2.disk.Holds path (call.after l) := by
  dsimp only
  cases call with
  | insert e =>
    cases hsave : machine.disk.save path (bytesOfText (l.insert e).text) with
    | none =>
      left
      exact ⟨path, Or.inl (congrArg Answer.inserted (run_insert_of_none h hfits hsave))⟩
    | some disk =>
      right
      rw [answer, run_map_of_eq (run_insert_of_some h hfits hsave)]
      exact ⟨rfl, holds_of_save hsave⟩
  | entries =>
    right
    rw [answer, run_map_of_eq (run_entries h hfits)]
    exact ⟨rfl, h⟩
  | clear =>
    right
    obtain ⟨disk, hrun, hholds, -⟩ := run_clear h
    rw [answer, run_map_of_eq hrun]
    exact ⟨rfl, hholds⟩

/-- Where a file can be saved, no call is refused, and a file can be saved afterwards. -/
theorem not_refused_of_savable (h : machine.disk.Holds path l) (hfits : ∀ e ∈ l, e.Fits)
    (hsavable : machine.disk.Savable path) (call : Call) :
    let ran := ((file Machine.host path).answer call).run machine
    ¬ ran.1.Refused ∧ ran.2.disk.Savable path := by
  dsimp only
  cases call with
  | insert e =>
    obtain ⟨disk, hsave⟩ := Option.isSome_iff_exists.1
      (hsavable (bytesOfText (l.insert e).text))
    rw [answer, run_map_of_eq (run_insert_of_some h hfits hsave)]
    exact ⟨by simp [Answer.Refused], (Disk.savable_of_save hsave).2⟩
  | entries =>
    rw [answer, run_map_of_eq (run_entries h hfits)]
    exact ⟨by simp [Answer.Refused], hsavable⟩
  | clear =>
    obtain ⟨disk, hrun, -, hdisk⟩ := run_clear h
    rw [answer, run_map_of_eq hrun]
    refine ⟨by simp [Answer.Refused], ?_⟩
    rcases hdisk with rfl | ⟨loc, hready⟩
    · exact hsavable
    · exact hready.savable

/-! ### Runs -/

/-- If no call is refused, all of them are answered from the ledgers that arise from the first, and
the file holds the last one. -/
theorem run_answers_file (h : machine.disk.Holds path l) (hfits : ∀ e ∈ l, e.Fits)
    (hcalls : AllAdmissible l calls)
    (hworks : ∀ a ∈ (((file Machine.host path).answers calls).run machine).1, ¬ a.Refused) :
    let onDisk := ((file Machine.host path).answers calls).run machine
    let inMemory := (memory.answers calls).run l
    onDisk.1 = inMemory.1 ∧ onDisk.2.disk.Holds path inMemory.2 ∧ ∀ e ∈ inMemory.2, e.Fits := by
  induction calls generalizing machine l with
  | nil => exact ⟨rfl, h, hfits⟩
  | cons call calls ih =>
    dsimp only [answers] at ih hworks ⊢
    rw [run_mapM_cons] at hworks ⊢
    obtain ⟨hwork, hworks⟩ := List.forall_mem_cons.1 hworks
    obtain ⟨hanswer, hholds⟩ := (run_answer_file h hfits call).resolve_left hwork
    obtain ⟨hanswers, hrest⟩ := ih hholds (fits_after hfits hcalls.1) hcalls.2 hworks
    rw [run_mapM_cons, run_answer_memory]
    dsimp only
    rw [hanswer, hanswers]
    exact ⟨rfl, hrest⟩

/-- Where a file can be saved, no call of a run is refused. -/
theorem not_refused_of_mem_answers (h : machine.disk.Holds path l) (hfits : ∀ e ∈ l, e.Fits)
    (hcalls : AllAdmissible l calls) (hsavable : machine.disk.Savable path) :
    ∀ a ∈ (((file Machine.host path).answers calls).run machine).1, ¬ a.Refused := by
  induction calls generalizing machine l with
  | nil => exact fun _ ha => nomatch ha
  | cons call calls ih =>
    rw [answers, run_mapM_cons]
    obtain ⟨hwork, hsavable⟩ := not_refused_of_savable h hfits hsavable call
    obtain ⟨-, hholds⟩ := (run_answer_file h hfits call).resolve_left hwork
    exact List.forall_mem_cons.2
      ⟨hwork, ih hholds (fits_after hfits hcalls.1) hcalls.2 hsavable⟩

/-- Where a file can be saved, no call is refused, however often the store is opened. -/
theorem not_refused_of_mem_sessions {sessions : List (List Call)}
    (hmissing : machine.disk.read path = .error .missing)
    (hcalls : AllAdmissible [] sessions.flatten) (hsavable : machine.disk.Savable path) :
    ∀ a ∈ ((sessions.mapM (file Machine.host path).answers).run machine).1.flatten,
      ¬ a.Refused := by
  have hholds : machine.disk.Holds path [] := .missing hmissing
  have hflat := run_mapM_flatten (file Machine.host path).answer sessions machine
  have hworks := not_refused_of_mem_answers hholds (fun _ he => nomatch he) hcalls hsavable
  rw [answers, hflat] at hworks
  exact hworks

/-- Stores that are opened on a path one after the other, where there was no file at first, answer
together what one store in memory answers that was empty at first, as long as no call is refused by
the files; and the file spells the ledger in memory at the end. No call is refused where a file can
be saved at the path. -/
theorem file_refines_memory {sessions : List (List Call)}
    (hmissing : machine.disk.read path = .error .missing)
    (hcalls : AllAdmissible [] sessions.flatten) :
    let onDisk := (sessions.mapM (file Machine.host path).answers).run machine
    let inMemory := (memory.answers sessions.flatten).run []
    ((∀ a ∈ onDisk.1.flatten, ¬ a.Refused) →
      onDisk.1.flatten = inMemory.1 ∧
        (load Machine.host path).run onDisk.2 = (.ok inMemory.2, onDisk.2)) ∧
      (machine.disk.Savable path → ∀ a ∈ onDisk.1.flatten, ¬ a.Refused) := by
  refine ⟨fun hworks => ?_, not_refused_of_mem_sessions hmissing hcalls⟩
  have hflat := run_mapM_flatten (file Machine.host path).answer sessions machine
  have hholds : machine.disk.Holds path [] := .missing hmissing
  have hrun := run_answers_file hholds (fun _ he => nomatch he) hcalls
  dsimp only [answers] at hworks hrun ⊢
  rw [hflat] at hrun
  obtain ⟨hanswers, hheld, hfits⟩ := hrun hworks
  exact ⟨hanswers, run_load hheld hfits⟩

/-- The second store on an empty disk, where nothing is refused, lists what the first one was
given. -/
theorem file_refines_memory_reopened :
    let machine : Machine := { disk := ⟨[], []⟩ }
    let sessions : List (List Call) :=
      [[.insert ⟨none, ['1', '÷', '"'], ['∞', '\n'], Entry.maxInt⟩], [.entries]]
    let onDisk := (sessions.mapM (file Machine.host ['h']).answers).run machine
    let inMemory := (memory.answers sessions.flatten).run []
    (∀ a ∈ onDisk.1.flatten, ¬ a.Refused) ∧ onDisk.1.flatten = inMemory.1 ∧
      (load Machine.host ['h']).run onDisk.2 = (.ok inMemory.2, onDisk.2) := by
  intro machine sessions
  have hmissing : machine.disk.read ['h'] = .error .missing := rfl
  have hsave : machine.disk.save ['h'] .empty = some (machine.disk.put [['h']] (.file .empty)) :=
    rfl
  have hcalls : AllAdmissible [] sessions.flatten :=
    ⟨⟨⟨nofun, by decide⟩, fun _ _ h => nomatch h⟩, trivial, trivial⟩
  obtain ⟨hrefines, hsavable⟩ := file_refines_memory hmissing hcalls
  have hworks := hsavable (Disk.savable_of_save hsave).1
  exact ⟨hworks, hrefines hworks⟩

end Store

end PocketCalculator
