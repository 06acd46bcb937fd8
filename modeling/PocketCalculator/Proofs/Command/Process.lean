import PocketCalculator.Command.Program
import PocketCalculator.Proofs.Command.Arguments
import PocketCalculator.Proofs.Command.Course
import PocketCalculator.Proofs.Config.Load

/-!
# Processes that go on from each other

A process in which keys are pressed goes on from the state and the history that are on its disk
(`Continues`), and leaves others there (`Leaves`), from which the next one goes on.
-/

namespace PocketCalculator

namespace Session

/-! ### One session -/

/-- Whether the configuration on a disk is accepted, and with it and the options of the program a
session keeps its state and its history in two files that are not the configuration. The session
does not start anew and copies nothing. -/
structure Keeps (places : Places) (settings : Settings) (o : Options) (d : Disk)
    (statePath historyPath : Path) : Prop where
  given : o.Given
  load_eq : ((Settings.load Machine.host places o.config).run { disk := d }).1 = .ok settings
  fresh_eq : o.fresh = false
  copy_eq : o.copy = false
  state_eq : (o.state <|> places.stateFile settings) = some statePath
  history_eq : places.historyFile settings = some historyPath
  apart : d.Apart (o.config <|> places.configFile) statePath historyPath

/-- Whether a session may start on a disk `disk` after others that started on `d`: the configuration
is read as it was, the state can be saved, and the history is `l`. -/
structure Continues (d : Disk) (third : Option Path) (p q : Path) (l : Ledger) (disk : Disk) :
    Prop where
  read_eq : ∀ path, third = some path → disk.read path = d.read path
  save : ∀ c, ∃ disk', disk.save p c = some disk' ∧ d.Stage third p q c l.file? disk'
  numbered : l.Numbered

variable {places : Places} {settings : Settings} {o : Options} {d : Disk} {p q : Path}
  {third : Option Path} {drv : Drive} {l : Ledger} {ks : List Key}

theorem continues_start (h : d.Apart third p q) : Continues d third p q [] d := by
  refine ⟨fun _ _ => rfl, fun c => ?_, Ledger.numbered_nil⟩
  obtain ⟨d₁, d₂, htrial⟩ := h c .empty
  exact ⟨d₁, htrial.save_first, .first htrial.save_first⟩

/-- A session that goes on from another one presses its keys, shows the state, saves it and records
what was calculated. -/
theorem run_session_of_keeps (machine : Machine) (h : Keeps places settings o d p q)
    (htyped : drv.typed machine.input = (ks, none))
    (hdisk : Continues d (o.config <|> places.configFile) p q l machine.disk)
    (hclock : Entry.FitsTime machine.clock)
    (hlength : ((l.length + ks.length : Nat) : Int) ≤ Entry.maxInt) :
    let pressed := (restored (machine.disk.read p)).pressAll settings.separators ks
    ∃ machine', (run Machine.host places settings o drv).run machine = (none, machine') ∧
      display pressed.1 <:+ machine'.output ∧
      d.Stage (o.config <|> places.configFile) p q (bytesOfText pressed.1.save)
        (recordedIn settings.recording l (pressed.2.map (entryAt machine.clock))).file?
        machine'.disk := by
  intro pressed
  obtain ⟨disk, hsave, hstage⟩ := hdisk.save (bytesOfText pressed.1.save)
  have hcourse : course settings.separators o.copy machine
      (start o.fresh (machine.disk.read p)) drv = ⟨pressed.1, pressed.2, none⟩ := by
    rw [course, htyped, h.copy_eq, h.fresh_eq]
    rfl
  have hle : pressed.2.length ≤ ks.length := State.length_pressAll_le _ _ _
  have hentries := map_entryAt_fits pressed.2 hclock
  obtain ⟨hnumbered, hlength'⟩ := numbered_recordedIn settings.recording hdisk.numbered hentries
  rw [List.length_map] at hlength'
  have hledger := Disk.ledger?_of_stage hstage h.apart (hdisk.numbered.fits (by omega))
  have hsavable : disk.Savable q := fun c => by
    obtain ⟨disk', hsave', -⟩ := hstage.save_second h.apart c
    rw [hsave']
    rfl
  obtain ⟨machine', hrun, hshown, hrecords⟩ := run_session h.state_eq h.history_eq hcourse hsave
    hledger hsavable (hnumbered.fits (by omega))
  refine ⟨machine', hrun, hshown rfl, ?_⟩
  have hids : ∀ e ∈ (if settings.recording then pressed.2.map (entryAt machine.clock) else []),
      e.id = none := by
    split
    · exact id_of_mem_map_entryAt _ _
    · exact nofun
  rw [recordedIn_eq_foldl]
  exact hrecords.stage hids hstage h.apart

end Session

namespace Program

open Session

/-! ### One process -/

/-- A run of the program in a process of its own, with what is typed into it. -/
def process (places : Places) (disk : Disk) (clock : Int) (input : Text) (args : List Text) :
    Nat × Machine :=
  (run Machine.host places args).run { disk, clock, input := (lines input).map some }

/-- Whether a process that came to a state ends well: it shows the state at last, and leaves it
behind together with the history `l`. -/
structure Leaves (d : Disk) (third : Option Path) (p q : Path) (st : State) (l : Ledger)
    (ran : Nat × Machine) : Prop where
  code_eq : ran.1 = 0
  output : display st <:+ ran.2.output
  stage : d.Stage third p q (bytesOfText st.save) l.file? ran.2.disk

variable {places : Places} {settings : Settings} {o : Options} {d disk : Disk} {p q : Path}
  {clock : Int} {input script : Text} {args : List Text} {l : Ledger} {ks : List Key} {drv : Drive}
  {command : Command} {third : Option Path} {st : State} {ran : Nat × Machine}

theorem Leaves.continues (h : Leaves d third p q st l ran) (hapart : d.Apart third p q)
    (hl : l.Numbered) : Continues d third p q l ran.2.disk :=
  ⟨fun _ hpath => h.stage.read_third hapart hpath, h.stage.save_first, hl⟩

theorem Leaves.restored_eq (h : Leaves d third p q st l ran) (hst : st.Consistent)
    (hcount : st.openCount ≤ Snapshot.maxCount) : restored (ran.2.disk.read p) = st := by
  rw [h.stage.read_first, restored_save hst hcount]

/-- The exit code of the program says whether its command has failed, and why is complained about
last. -/
theorem run_of_request {machine machine' : Machine} {failure? : Option Failure}
    (hargs : Arguments.read args = some (.run o command))
    (hrequest : (runRequest Machine.host places o command).run machine = (failure?, machine')) :
    ∃ complaints, (run Machine.host places args).run machine =
        (if failure?.isNone then 0 else 1, { machine' with complaints }) ∧
      ∀ failure, failure? = some failure →
        complaints.getLast? = some ("Error: ".toList ++ failure.message.toList) := by
  unfold run
  rw [hargs]
  dsimp only
  rw [run_bind_of_eq hrequest]
  cases failure? with
  | none => exact ⟨machine'.complaints, rfl, nofun⟩
  | some failure =>
    refine ⟨_, rfl, ?_⟩
    rintro _ ⟨⟩
    exact List.getLast?_concat

theorem run_runRequest {machine machine' : Machine} {failure? : Option Failure}
    (hload : ((Settings.load Machine.host places o.config).run machine).1 = .ok settings)
    (hrun : (runCommand Machine.host places settings o command).run machine =
      (failure?, machine')) :
    (runRequest Machine.host places o command).run machine = (failure?, machine') := by
  have hloaded : (Settings.load Machine.host places o.config).run machine =
      (.ok settings, machine) := by
    rw [Settings.run_load machine machine fun _ _ => rfl, hload]
  unfold runRequest
  rw [run_bind_of_eq hloaded]
  exact hrun

/-- A process that runs a session in which some keys are pressed. -/
theorem process_of_drive (h : Session.Keeps places settings o d p q)
    (hargs : Arguments.read args = some (.run o command))
    (hcommand : runCommand Machine.host places settings o command =
      Session.run Machine.host places settings o drv)
    (hdisk : Continues d (o.config <|> places.configFile) p q l disk)
    (htyped : drv.typed ((lines input).map some) = (ks, none)) (hclock : Entry.FitsTime clock)
    (hlength : ((l.length + ks.length : Nat) : Int) ≤ Entry.maxInt) :
    let pressed := (restored (disk.read p)).pressAll settings.separators ks
    Leaves d (o.config <|> places.configFile) p q pressed.1
      (recordedIn settings.recording l (pressed.2.map (entryAt clock)))
      (process places disk clock input args) := by
  intro pressed
  let machine : Machine := { disk, clock, input := (lines input).map some }
  have hload : ((Settings.load Machine.host places o.config).run machine).1 = .ok settings := by
    rw [Settings.run_load { disk := d } machine hdisk.read_eq, h.load_eq]
  obtain ⟨machine', hrun, houtput, hstage⟩ :=
    run_session_of_keeps machine h htyped hdisk hclock hlength
  rw [← hcommand] at hrun
  obtain ⟨complaints, hran, -⟩ := run_of_request hargs (run_runRequest hload hrun)
  have hprocess : process places disk clock input args = (0, { machine' with complaints }) := hran
  rw [hprocess]
  exact ⟨rfl, houtput, hstage⟩

/-- The arguments for a script. -/
def keysArguments (o : Options) (script : Text) : List Text :=
  o.arguments ++ ["keys".toList, "--".toList, script]

theorem process_keys (h : Session.Keeps places settings o d p q)
    (hdisk : Continues d (o.config <|> places.configFile) p q l disk)
    (hscript : Script.read script = .ok ks) (hclock : Entry.FitsTime clock)
    (hlength : ((l.length + ks.length : Nat) : Int) ≤ Entry.maxInt) :
    let pressed := (restored (disk.read p)).pressAll settings.separators ks
    Leaves d (o.config <|> places.configFile) p q pressed.1
      (recordedIn settings.recording l (pressed.2.map (entryAt clock)))
      (process places disk clock [] (keysArguments o script)) := by
  have hcommand : runCommand Machine.host places settings o (.keys script) =
      Session.run Machine.host places settings o (.keys ks) := by
    rw [runCommand, hscript]
  exact process_of_drive h (Arguments.read_keys h.given script) hcommand hdisk rfl hclock hlength

theorem process_repl (h : Session.Keeps places settings o d p q)
    (hdisk : Continues d (o.config <|> places.configFile) p q l disk)
    (hscripts : ∀ line ∈ lines input, Script.read (trim line) = .ok (Script.keys line))
    (hkeys : (lines input).flatMap Script.keys = ks) (hclock : Entry.FitsTime clock)
    (hlength : ((l.length + ks.length : Nat) : Int) ≤ Entry.maxInt) :
    let pressed := (restored (disk.read p)).pressAll settings.separators ks
    Leaves d (o.config <|> places.configFile) p q pressed.1
      (recordedIn settings.recording l (pressed.2.map (entryAt clock)))
      (process places disk clock input (o.arguments ++ ["repl".toList])) := by
  have htyped : Drive.lines.typed ((lines input).map some) = (ks, none) := by
    rw [← hkeys]
    exact typed_of_read hscripts
  exact process_of_drive h (Arguments.read_repl h.given) rfl hdisk htyped hclock hlength

end Program

end PocketCalculator
