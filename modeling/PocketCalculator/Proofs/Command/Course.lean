import PocketCalculator.Proofs.Command.Session

/-!
# The course of a session

What a session comes to depends on the state that it starts from, on the lines of the user and on
the clipboard (`course`). The state is saved if nothing has gone wrong until then, and the
calculations are recorded in any case (`run_session`).
-/

namespace PocketCalculator

namespace Session

/-! ### The ledger after a session -/

/-- The ledger after entries have been recorded, if they are. -/
def recordedIn (recording : Bool) (l : Ledger) (es : List Entry) : Ledger :=
  if recording then es.foldl Ledger.insert l else l

variable {l : Ledger} {time : Int}

theorem id_of_mem_map_entryAt (cs : List Calculation) (time : Int) :
    ∀ e ∈ cs.map (entryAt time), e.id = none := by
  intro e he
  obtain ⟨c, -, rfl⟩ := List.mem_map.1 he
  rfl

theorem map_entryAt_fits (cs : List Calculation) (htime : Entry.FitsTime time) :
    ∀ e ∈ cs.map (entryAt time), e.id = none ∧ Entry.FitsTime e.time := by
  intro e he
  obtain ⟨c, -, rfl⟩ := List.mem_map.1 he
  exact ⟨rfl, htime⟩

theorem recordedIn_eq_foldl (recording : Bool) (l : Ledger) (es : List Entry) :
    recordedIn recording l es = (if recording then es else []).foldl Ledger.insert l := by
  cases recording <;> rfl

theorem recordedIn_append (recording : Bool) (l : Ledger) (first second : List Entry) :
    recordedIn recording l (first ++ second) =
      recordedIn recording (recordedIn recording l first) second := by
  cases recording with
  | false => rfl
  | true => exact List.foldl_append

/-- When calculations were recorded does not matter but for the times. -/
theorem untimed_recordedIn (recording : Bool) (l : Ledger) (cs : List Calculation) (time : Int) :
    (recordedIn recording l (cs.map (entryAt time))).untimed =
      recordedIn recording l.untimed (cs.map (entryAt 0)) := by
  have huntimed : (cs.map (entryAt time)).map Entry.untimed = cs.map (entryAt 0) := by
    rw [List.map_map]
    rfl
  cases recording with
  | false => rfl
  | true =>
    rw [recordedIn, if_pos rfl, Ledger.untimed_foldl_insert l (id_of_mem_map_entryAt cs time),
      huntimed]
    rfl

theorem numbered_recordedIn (recording : Bool) {es : List Entry} (hl : l.Numbered)
    (hes : ∀ e ∈ es, e.id = none ∧ Entry.FitsTime e.time) :
    (recordedIn recording l es).Numbered ∧
      (recordedIn recording l es).length ≤ l.length + es.length := by
  cases recording with
  | false => exact ⟨hl, Nat.le_add_right _ _⟩
  | true => exact ⟨hl.foldl_insert hes, (Ledger.length_foldl_insert l fun e he => (hes e he).1).le⟩

/-! ### The end of a session -/

/-- Why a readout is not copied to a clipboard, if it is not. -/
def copyError? (s : Separators) (clipboard : Clipboard) (readout : Text) : Option CopyError :=
  match clipboardText? s readout with
  | none => some (.nothing readout)
  | some _ => clipboard.error.map .clipboard

/-- What goes wrong when a readout has to be copied, if it has to be. -/
def copyFailure? (s : Separators) (copy : Bool) (clipboard : Clipboard) (readout : Text) :
    Option Failure :=
  if copy then (copyError? s clipboard readout).map .copy else none

variable {machine : Machine} {s : Separators} {copy : Bool} {p q : Path} {st : State}
  {readout : Text} {disk : Disk}

theorem run_copyReadout (machine : Machine) (s : Separators) (readout : Text) :
    ∃ clipboard, (copyReadout Machine.host s readout).run machine =
      ((copyError? s machine.clipboard readout).elim (.ok ()) .error,
        { machine with clipboard }) := by
  unfold copyReadout copyError?
  cases clipboardText? s readout with
  | none => exact ⟨machine.clipboard, rfl⟩
  | some t =>
    have hcopy := Machine.run_copy machine t
    dsimp only
    cases herror : machine.clipboard.error with
    | none =>
      rw [herror] at hcopy
      rw [run_bind_of_eq hcopy]
      exact ⟨_, rfl⟩
    | some e =>
      rw [herror] at hcopy
      rw [run_bind_of_eq hcopy]
      exact ⟨machine.clipboard, rfl⟩

/-- A session that cannot copy its readout does not save its state. -/
theorem run_finish_of_some {failure : Failure}
    (h : copyFailure? s copy machine.clipboard st.readout = some failure) :
    ∃ clipboard, (finish Machine.host s copy (some p) st).run machine =
      (some failure, { machine with output := machine.output ++ display st, clipboard }) := by
  unfold copyFailure? at h
  unfold finish
  rw [run_bind_of_eq (Machine.run_print machine _)]
  cases copy with
  | false => cases h
  | true =>
    obtain ⟨e, herror, rfl⟩ := Option.map_eq_some_iff.1 h
    obtain ⟨clipboard, hcopy⟩ := run_copyReadout
      { machine with output := machine.output ++ display st } s st.readout
    rw [herror] at hcopy
    dsimp only
    rw [if_pos rfl, run_bind_of_eq hcopy]
    exact ⟨clipboard, rfl⟩

theorem run_finish_of_none (h : copyFailure? s copy machine.clipboard st.readout = none)
    (hsave : machine.disk.save p (bytesOfText st.save) = some disk) :
    ∃ clipboard, (finish Machine.host s copy (some p) st).run machine =
      (none, { machine with output := machine.output ++ display st, clipboard, disk }) := by
  unfold copyFailure? at h
  unfold finish
  rw [run_bind_of_eq (Machine.run_print machine _)]
  cases copy with
  | false => exact ⟨machine.clipboard, run_save hsave⟩
  | true =>
    obtain ⟨clipboard, hcopy⟩ := run_copyReadout
      { machine with output := machine.output ++ display st } s st.readout
    rw [Option.map_eq_none_iff.1 h] at hcopy
    dsimp only
    rw [if_pos rfl, run_bind_of_eq hcopy]
    exact ⟨clipboard, run_save hsave⟩

/-! ### Whole sessions -/

/-- The state that a session starts from. -/
def start (fresh : Bool) (found : Except FileError ByteArray) : State :=
  if fresh then .initial else restored found

theorem run_start (machine : Machine) (fresh : Bool) (p : Path) :
    ∃ warnings, (if fresh then pure .initial else restore Machine.host p).run machine =
      (start fresh (machine.disk.read p), { machine with warnings }) := by
  cases fresh with
  | false => exact run_restore machine p
  | true => exact ⟨machine.warnings, rfl⟩

/-- What a session comes to. -/
structure Course where
  state : State
  calculations : List Calculation
  /-- Why the session does not come to save its state, if it does not. -/
  failure? : Option Failure
deriving DecidableEq, Repr

/-- What a session comes to that starts from a state. -/
def course (s : Separators) (copy : Bool) (machine : Machine) (st : State) (drv : Drive) :
    Course :=
  let (keys, failure?) := drv.typed machine.input
  let (state, calculations) := st.pressAll s keys
  ⟨state, calculations, failure?.or (copyFailure? s copy machine.clipboard state.readout)⟩

/-- The entries for what a session calculates at some time. -/
def Course.entries (c : Course) (time : Int) : List Entry :=
  c.calculations.map (entryAt time)

/-- What becomes of a disk before the history is written: the state is saved unless something has
gone wrong. -/
def Course.Finishes (c : Course) (d : Disk) (p : Path) (d' : Disk) : Prop :=
  match c.failure? with
  | none => d.save p (bytesOfText c.state.save) = some d'
  | some _ => d' = d

variable {places : Places} {settings : Settings} {o : Options} {drv : Drive} {c : Course}

/-- What a session does after its keys: nothing after a failure. -/
def finishUnless (s : Separators) (copy : Bool) (p : Path) (st : State) :
    Option Failure → StateM Machine (Option Failure)
  | some failure => pure (some failure)
  | none => finish Machine.host s copy (some p) st

/-- Writes the history, if it is recorded. -/
def record (recording : Bool) (q : Path) (retries : Nat) (es : List Entry) : StateM Machine Unit :=
  if recording then writeHistory Machine.host q retries es else pure ()

/-- A session is four things one after the other. -/
theorem run_eq (drv : Drive) (hstate : (o.state <|> places.stateFile settings) = some p)
    (hhistory : places.historyFile settings = some q) :
    run Machine.host places settings o drv =
      (if o.fresh then pure .initial else restore Machine.host p) >>= fun st =>
        drive Machine.host settings.separators ⟨st, []⟩ drv >>= fun driven =>
          finishUnless settings.separators o.copy p driven.1.state driven.2 >>= fun failure? =>
            record settings.recording q settings.maxRetries driven.1.recorded >>= fun _ =>
              pure failure? := by
  unfold run
  rw [hstate, hhistory]
  cases o.fresh <;> refine bind_congr fun st => bind_congr fun driven => ?_
  all_goals
    obtain ⟨progress, failure?⟩ := driven
    cases failure? <;> refine bind_congr fun failure? => ?_ <;> cases settings.recording <;> rfl

theorem run_finishUnless (hfinish : c.Finishes machine.disk p disk) {failure? : Option Failure}
    (hfailure : failure?.or (copyFailure? s copy machine.clipboard c.state.readout) = c.failure?) :
    ∃ output clipboard, (finishUnless s copy p c.state failure?).run machine =
        (c.failure?, { machine with output, clipboard, disk }) ∧
      (c.failure? = none → display c.state <:+ output) := by
  unfold Course.Finishes at hfinish
  cases failure? with
  | some failure =>
    rw [Option.some_or] at hfailure
    rw [← hfailure] at hfinish ⊢
    obtain rfl := hfinish
    exact ⟨machine.output, machine.clipboard, rfl, nofun⟩
  | none =>
    rw [Option.none_or] at hfailure
    rw [← hfailure] at hfinish ⊢
    cases hcopy : copyFailure? s copy machine.clipboard c.state.readout with
    | some failure =>
      rw [hcopy] at hfinish
      obtain rfl := hfinish
      obtain ⟨clipboard, hrun⟩ := run_finish_of_some (p := p) hcopy
      exact ⟨_, clipboard, hrun, nofun⟩
    | none =>
      rw [hcopy] at hfinish
      obtain ⟨clipboard, hrun⟩ := run_finish_of_none hcopy hfinish
      exact ⟨_, clipboard, hrun, fun _ => List.suffix_append _ _⟩

theorem run_record (recording : Bool) (retries : Nat) {es : List Entry}
    (hledger : machine.disk.ledger? q = some l) (hsavable : machine.disk.Savable q)
    (hes : ∀ e ∈ es, e.id = none) (hfits : ∀ e ∈ recordedIn recording l es, e.Fits) :
    ∃ disk, (record recording q retries es).run machine = ((), { machine with disk }) ∧
      machine.disk.Records q l (if recording then es else []) disk := by
  cases recording with
  | false => exact ⟨machine.disk, rfl, .nothing⟩
  | true => exact run_writeHistory retries hledger hsavable hes hfits

/-- A session presses its keys, shows the state and saves it unless something has gone wrong, and
in any case records what was calculated. -/
theorem run_session (hstate : (o.state <|> places.stateFile settings) = some p)
    (hhistory : places.historyFile settings = some q)
    (hcourse : course settings.separators o.copy machine (start o.fresh (machine.disk.read p))
      drv = c)
    (hfinish : c.Finishes machine.disk p disk) (hledger : disk.ledger? q = some l)
    (hsavable : disk.Savable q)
    (hfits : ∀ e ∈ recordedIn settings.recording l (c.entries machine.clock), e.Fits) :
    ∃ machine', (run Machine.host places settings o drv).run machine = (c.failure?, machine') ∧
      (c.failure? = none → display c.state <:+ machine'.output) ∧
      disk.Records q l (if settings.recording then c.entries machine.clock else [])
        machine'.disk := by
  obtain ⟨warnings, hstart⟩ := run_start machine o.fresh p
  obtain ⟨output, complaints, input, hdrive⟩ := @run_drive settings.separators
    { machine with warnings } ⟨start o.fresh (machine.disk.read p), []⟩ drv
  obtain ⟨output', clipboard, hended, hshown⟩ := @run_finishUnless
    { machine with warnings, output, complaints, input } settings.separators o.copy p disk c
    hfinish (drv.typed machine.input).2 (hcourse ▸ rfl)
  obtain ⟨disk', hrecord, hrecords⟩ := @run_record l
    { machine with warnings, output := output', complaints, input, clipboard, disk } q
    settings.recording settings.maxRetries (c.entries machine.clock) hledger hsavable
    (id_of_mem_map_entryAt _ _) hfits
  have hafter : Progress.after settings.separators machine.clock
      ⟨start o.fresh (machine.disk.read p), []⟩ (drv.typed machine.input).1 =
        ⟨c.state, c.entries machine.clock⟩ := by
    rw [← hcourse]
    rfl
  dsimp only at hdrive
  rw [hafter] at hdrive
  refine ⟨{ machine with
    warnings, output := output', complaints, input, clipboard, disk := disk' }, ?_, hshown,
    hrecords⟩
  rw [run_eq drv hstate hhistory, run_bind_of_eq hstart, run_bind_of_eq hdrive,
    run_bind_of_eq hended, run_bind_of_eq hrecord]
  rfl

end Session

end PocketCalculator
