import PocketCalculator.Proofs.Command.Process

/-!
# What is left behind at the end

However a session ends, what it calculated is in the history. The state is saved only if nothing
has failed before: a line that is no text and a readout that is not copied end the session with the
exit code 1 and leave the state file as it was, although the history has grown (`session_exit`).
-/

namespace PocketCalculator

namespace Session

variable {d : Disk} {p q : Path} {l : Ledger}

/-- What a session leaves before the history is written: the state has been saved or is as it was,
and the history is as it was. -/
theorem Course.exists_finishes (c : Course) (hdisk : d.Separate p q)
    (hledger : d.ledger? q = some l) :
    ∃ d', c.Finishes d p d' ∧ d'.ledger? q = some l ∧ d'.Spares p q ∧
      d'.read p = if c.failure?.isNone then .ok (bytesOfText c.state.save) else d.read p := by
  unfold Course.Finishes
  cases c.failure? with
  | some failure => exact ⟨d, rfl, hledger, hdisk.spares_first, rfl⟩
  | none =>
    obtain ⟨hsavable, hread⟩ := hdisk.spares_second
    obtain ⟨d', hsave⟩ := Option.isSome_iff_exists.1 (hsavable (bytesOfText c.state.save))
    refine ⟨d', hsave, ?_, hdisk.spares_saved _ _ hsave, Disk.read_of_save hsave⟩
    rw [Disk.ledger?_eq_of_read_eq (hread _ _ hsave), hledger]

end Session

/-- What drives the session of a command when the history is `l`, or why the command fails before;
the other commands do not run a session. -/
def Command.drive? (l : Ledger) : Command → Option (Except Failure Session.Drive)
  | .keys script => some <|
    match Script.read script with
    | .ok ks => .ok (.keys ks)
    | .error e => .error (.script e)
  | .load number => some (.ok (.keys [.load number]))
  | .repl => some (.ok .lines)
  | .recall id => some <|
    match l.newestFirst.find? fun e => e.id = some id with
    | some e => .ok (.keys [.load e.result])
    | none => .error (.noEntry id)
  | .history => none
  | .clearHistory => none

namespace Program

open Session

variable {machine : Machine} {places : Places} {settings : Settings} {o : Options}
  {command : Command} {driven : Except Failure Drive} {p q : Path} {l : Ledger} {args : List Text}
  {c : Course} {disk : Disk}

/-- Runs the session of a command, unless the command fails before. -/
def runDrive (places : Places) (settings : Settings) (o : Options) :
    Except Failure Drive → StateM Machine (Option Failure)
  | .ok drv => Session.run Machine.host places settings o drv
  | .error failure => pure (some failure)

theorem run_runCommand (hhistory : places.historyFile settings = some q)
    (hledger : machine.disk.ledger? q = some l) (hdrive : command.drive? l = some driven) :
    (runCommand Machine.host places settings o command).run machine =
      (runDrive places settings o driven).run machine := by
  match command, hdrive with
  | .keys script, rfl =>
    rw [runCommand]
    cases Script.read script <;> rfl
  | .load _, rfl => rfl
  | .repl, rfl => rfl
  | .recall id, rfl =>
    rw [runCommand, withHistory, hhistory]
    dsimp only
    unfold runOnEntry
    rw [run_bind_of_eq (Store.run_entries_of_ledger? hledger)]
    dsimp only
    cases l.newestFirst.find? fun e => e.id = some id <;> rfl

/-- What a command comes to that runs a session from a state, or fails before. -/
def commandCourse (s : Separators) (copy : Bool) (machine : Machine) (st : State) :
    Except Failure Drive → Course
  | .ok drv => course s copy machine st drv
  | .error failure => ⟨st, [], some failure⟩

theorem run_command (hstate : (o.state <|> places.stateFile settings) = some p)
    (hhistory : places.historyFile settings = some q)
    (hledger : machine.disk.ledger? q = some l) (hdrive : command.drive? l = some driven)
    (hcourse : commandCourse settings.separators o.copy machine
      (start o.fresh (machine.disk.read p)) driven = c)
    (hfinish : c.Finishes machine.disk p disk) (hledger' : disk.ledger? q = some l)
    (hsavable : disk.Savable q)
    (hfits : ∀ e ∈ recordedIn settings.recording l (c.entries machine.clock), e.Fits) :
    ∃ machine', (runCommand Machine.host places settings o command).run machine =
        (c.failure?, machine') ∧
      disk.Records q l (if settings.recording then c.entries machine.clock else [])
        machine'.disk := by
  rw [run_runCommand hhistory hledger hdrive]
  cases driven with
  | ok drv =>
    obtain ⟨machine', hrun, -, hrecords⟩ := run_session hstate hhistory hcourse hfinish hledger'
      hsavable hfits
    exact ⟨machine', hrun, hrecords⟩
  | error failure =>
    obtain rfl := hcourse
    obtain rfl := hfinish
    refine ⟨machine, rfl, ?_⟩
    cases settings.recording <;> exact .nothing

/-- Whatever the clipboard and the input do to a session, at the end of the process the history has
got all that the session calculated. If the exit code is 0, the state is saved, and if it is 1, the
state file is as it was before and the reason is reported. The two paths are in order, and no
number outgrows its record. -/
theorem session_exit (hargs : Arguments.read args = some (.run o command))
    (hload : ((Settings.load Machine.host places o.config).run machine).1 = .ok settings)
    (hstate : (o.state <|> places.stateFile settings) = some p)
    (hhistory : places.historyFile settings = some q) (hdisk : machine.disk.Separate p q)
    (hledger : machine.disk.ledger? q = some l) (hdrive : command.drive? l = some driven)
    (hcourse : commandCourse settings.separators o.copy machine
      (start o.fresh (machine.disk.read p)) driven = c)
    (hfits : ∀ e ∈ recordedIn settings.recording l (c.entries machine.clock), e.Fits) :
    let ran := (run Machine.host places args).run machine
    ran.2.disk.ledger? q = some (recordedIn settings.recording l (c.entries machine.clock)) ∧
      match c.failure? with
      | none => ran.1 = 0 ∧ ran.2.disk.read p = .ok (bytesOfText c.state.save)
      | some failure => ran.1 = 1 ∧ ran.2.disk.read p = machine.disk.read p ∧
          ran.2.complaints.getLast? = some ("Error: ".toList ++ failure.message.toList) := by
  intro ran
  obtain ⟨disk, hfinish, hledger', hspares, hread⟩ := c.exists_finishes hdisk hledger
  obtain ⟨machine', hrun, hrecords⟩ := run_command hstate hhistory hledger hdrive hcourse hfinish
    hledger' hspares.1 hfits
  obtain ⟨complaints, hran, hreported⟩ := run_of_request hargs (run_runRequest hload hrun)
  have hran : ran = _ := hran
  rw [recordedIn_eq_foldl] at hfits ⊢
  constructor
  · rw [hran]
    exact hrecords.ledger?_eq hledger' hfits
  · have hleft : ran.2.disk.read p = disk.read p := by
      rw [hran]
      exact hrecords.read_eq hspares
    rw [hleft, hread, hran]
    cases hfailure : c.failure? with
    | none => exact ⟨rfl, rfl⟩
    | some failure => exact ⟨rfl, rfl, hreported failure hfailure⟩

/-- With a clipboard that cannot be opened, a sum is recorded but the state is not saved. -/
theorem session_exit_clipboard_closed :
    let places : Places := ⟨some "/c".toList, some "/d".toList, some "/s".toList⟩
    let disk : Disk :=
      ⟨[(["d".toList], .folder), (["d".toList, "padcalc".toList], .folder),
        (["s".toList], .folder), (["s".toList, "padcalc".toList], .folder)], []⟩
    let machine : Machine := { disk, clipboard := { error := some .closed } }
    let args := ["--copy".toList, "keys".toList, "1+1=".toList]
    let ran := (run Machine.host places args).run machine
    ran.1 = 1 ∧
      ran.2.disk.ledger? "/d/padcalc/history.json".toList =
        some [⟨some 1, "1+1".toList, "2".toList, 0⟩] ∧
      ran.2.disk.read "/s/padcalc/state.json".toList = .error .missing ∧
      ran.2.complaints.getLast? = some "Error: Failed to access clipboard".toList := by
  intro places disk machine args ran
  have hp : disk.Ready "/s/padcalc/state.json".toList
      ["s".toList, "padcalc".toList, "state.json".toList] :=
    ⟨rfl, nofun, rfl, by rintro _ ⟨⟩; rfl⟩
  have hq : disk.Ready "/d/padcalc/history.json".toList
      ["d".toList, "padcalc".toList, "history.json".toList] :=
    ⟨rfl, nofun, rfl, by rintro _ ⟨⟩; rfl⟩
  have hdisk : machine.disk.Separate _ _ := hp.separate hq (by decide)
  have hdrive : (Command.keys "1+1=".toList).drive? [] =
      some (.ok (.keys [.digit 1, .operator .plus, .digit 1, .equals])) := rfl
  have hcourse : commandCourse ({} : Settings).separators true machine
      (start false (machine.disk.read "/s/padcalc/state.json".toList))
        (.ok (.keys [.digit 1, .operator .plus, .digit 1, .equals])) =
      ⟨⟨"2".toList, "2".toList, "1+1".toList, 0, .afterEvaluation⟩,
        [⟨"1+1".toList, "2".toList⟩], some (.copy (.clipboard .closed))⟩ := by
    decide +kernel
  have hargs : Arguments.read args = some (.run { copy := true } (.keys "1+1=".toList)) := rfl
  have hload : ((Settings.load Machine.host places none).run machine).1 = .ok {} := rfl
  have hstate : ((none : Option Path) <|> places.stateFile {}) =
      some "/s/padcalc/state.json".toList := rfl
  have hhistory : places.historyFile {} = some "/d/padcalc/history.json".toList := rfl
  have htime : Entry.FitsTime machine.clock := by decide
  obtain ⟨hnumbered, -⟩ := numbered_recordedIn ({} : Settings).recording Ledger.numbered_nil
    (map_entryAt_fits [⟨"1+1".toList, "2".toList⟩] htime)
  obtain ⟨hledger, hcode, hread, hreported⟩ := session_exit hargs hload hstate hhistory hdisk rfl
    hdrive hcourse (hnumbered.fits (by decide))
  exact ⟨hcode, hledger, hread, hreported⟩

end Program

end PocketCalculator
