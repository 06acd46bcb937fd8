import PocketCalculator.Command.Session
import PocketCalculator.Proofs.Editor.Saving
import PocketCalculator.Proofs.History.FileStore
import PocketCalculator.Proofs.History.Numbering
import PocketCalculator.Proofs.Host.Apart
import PocketCalculator.Proofs.Keypad.Script

/-!
# The parts of a session on a machine

What pressing keys, restoring and saving the state and writing the history do on a machine whose
files work.
-/

namespace PocketCalculator

/-! ### Pressing keys -/

theorem State.pressAll_append (s : Separators) (st : State) (first second : List Key) :
    st.pressAll s (first ++ second) =
      (((st.pressAll s first).1.pressAll s second).1,
        (st.pressAll s first).2 ++ ((st.pressAll s first).1.pressAll s second).2) := by
  induction first generalizing st with
  | nil => rfl
  | cons key first ih => simp [State.pressAll, ih]

/-- No key completes more than one calculation. -/
theorem State.length_pressAll_le (s : Separators) (st : State) (keys : List Key) :
    (st.pressAll s keys).2.length ≤ keys.length := by
  induction keys generalizing st with
  | nil => exact Nat.le_refl _
  | cons key keys ih =>
    have hstep : (st.press s key).2.toList.length ≤ 1 := by
      cases (st.press s key).2 <;> simp
    have hrest := ih (st.press s key).1
    rw [State.pressAll, List.length_append, List.length_cons]
    omega

/-- The entry of a calculation that was completed at some time. -/
def entryAt (time : Int) (c : Calculation) : Entry :=
  ⟨none, c.formula, c.result, time⟩

/-- A session after some keys that were pressed at some time. -/
def Progress.after (s : Separators) (time : Int) (progress : Progress) (keys : List Key) :
    Progress :=
  ⟨(progress.state.pressAll s keys).1,
    progress.recorded ++ (progress.state.pressAll s keys).2.map (entryAt time)⟩

theorem Progress.after_nil (s : Separators) (time : Int) (progress : Progress) :
    progress.after s time [] = progress := by
  rw [after, State.pressAll, List.map_nil, List.append_nil]

theorem Progress.after_after (s : Separators) (time : Int) (progress : Progress)
    (first second : List Key) :
    (progress.after s time first).after s time second =
      progress.after s time (first ++ second) := by
  simp [after, State.pressAll_append]

namespace Session

variable {machine : Machine} {s : Separators} {p : Path} {st : State} {disk : Disk}

theorem run_press (progress : Progress) (key : Key) :
    (press Machine.host s progress key).run machine =
      (⟨(progress.state.press s key).1, progress.recorded ++
        (progress.state.press s key).2.toList.map (entryAt machine.clock)⟩, machine) := by
  unfold press
  obtain ⟨state, calculation⟩ := progress.state.press s key
  cases calculation with
  | none =>
    dsimp only
    rw [Option.toList_none, List.map_nil, List.append_nil]
    rfl
  | some c => rfl

/-- Keys change only the state, and note what they complete. -/
theorem run_pressAll (progress : Progress) (keys : List Key) :
    (pressAll Machine.host s progress keys).run machine =
      (progress.after s machine.clock keys, machine) := by
  induction keys generalizing progress with
  | nil =>
    rw [Progress.after_nil]
    rfl
  | cons key keys ih =>
    rw [pressAll, run_bind_of_eq (run_press progress key), ih]
    simp [Progress.after, State.pressAll]

/-! ### Line by line -/

/-- The keys that the lines of a user press, up to a farewell or a line that is no text, and the
failure if it is the latter. -/
def typed : List (Option Text) → List Key × Option Failure
  | [] => ([], none)
  | none :: _ => ([], some .input)
  | some line :: rest =>
    if isFarewell (trim line) then ([], none)
    else
      match Script.read (trim line) with
      | .ok ks => (ks ++ (typed rest).1, (typed rest).2)
      | .error _ => typed rest

theorem typed_cons_of_read {line : Text} {ks : List Key} (rest : List (Option Text))
    (h : Script.read (trim line) = .ok ks) :
    typed (some line :: rest) = (ks ++ (typed rest).1, (typed rest).2) := by
  rw [typed, Script.isFarewell_eq_false h, if_neg Bool.false_ne_true, h]

/-- Lines that are scripts press the keys of all of them. -/
theorem typed_of_read {ls : List Text}
    (h : ∀ line ∈ ls, Script.read (trim line) = .ok (Script.keys line)) :
    typed (ls.map some) = (ls.flatMap Script.keys, none) := by
  induction ls with
  | nil => rfl
  | cons line ls ih =>
    obtain ⟨hline, hls⟩ := List.forall_mem_cons.1 h
    rw [List.map_cons, typed_cons_of_read _ hline, ih hls, List.flatMap_cons]

theorem run_pressLine_of_farewell {line : Text} (progress : Progress)
    (h : isFarewell (trim line) = true) :
    (pressLine Machine.host s (progress, none) (some line)).run machine =
      (((progress, none), false), machine) := by
  unfold pressLine
  rw [Option.map_some]
  dsimp only
  rw [if_pos h]
  rfl

theorem run_pressLine_of_read {progress : Progress} {line : Text} {ks : List Key}
    (h : Script.read (trim line) = .ok ks) :
    (pressLine Machine.host s (progress, none) (some line)).run machine =
      (((progress.after s machine.clock ks, none), true),
        { machine with
          output := machine.output ++ display (progress.after s machine.clock ks).state ++
            prompt }) := by
  unfold pressLine
  rw [Option.map_some]
  dsimp only
  rw [Script.isFarewell_eq_false h, if_neg Bool.false_ne_true, h]
  dsimp only
  rw [run_bind_of_eq (run_pressAll progress ks)]
  rfl

/-- A line that is no script only leads to a complaint. -/
theorem run_pressLine_of_error {line : Text} {e : UnknownKey} (progress : Progress)
    (hfarewell : ¬ isFarewell (trim line) = true) (h : Script.read (trim line) = .error e) :
    (pressLine Machine.host s (progress, none) (some line)).run machine =
      (((progress, none), true),
        { machine with
          output := machine.output ++ prompt
          complaints := machine.complaints ++ [e.message.toList] }) := by
  unfold pressLine
  rw [Option.map_some]
  dsimp only
  rw [if_neg hfarewell, h]
  rfl

/-- Line by line the keys of the lines are pressed. -/
theorem run_foldInput (machine : Machine) (ls : List (Option Text)) (progress : Progress) :
    ∃ rest output complaints,
      (Machine.foldInput (pressLine Machine.host s) ls (progress, none)).run machine =
        (((progress.after s machine.clock (typed ls).1, (typed ls).2), rest),
          { machine with output, complaints }) := by
  induction ls generalizing progress machine with
  | nil =>
    refine ⟨[], machine.output, machine.complaints, ?_⟩
    rw [typed, Progress.after_nil]
    rfl
  | cons line ls ih =>
    rw [Machine.foldInput]
    cases line with
    | none =>
      refine ⟨ls, machine.output, machine.complaints, ?_⟩
      rw [typed, Progress.after_nil]
      rfl
    | some line =>
      by_cases hfarewell : isFarewell (trim line) = true
      · refine ⟨ls, machine.output, machine.complaints, ?_⟩
        rw [run_bind_of_eq (run_pressLine_of_farewell progress hfarewell), typed,
          if_pos hfarewell, Progress.after_nil]
        rfl
      · cases hread : Script.read (trim line) with
        | ok ks =>
          rw [run_bind_of_eq (run_pressLine_of_read hread), typed_cons_of_read ls hread,
            ← Progress.after_after]
          exact ih _ _
        | error e =>
          rw [run_bind_of_eq (run_pressLine_of_error progress hfarewell hread), typed,
            if_neg hfarewell, hread]
          exact ih _ _

/-- The keys that a session presses, given the lines of the user, and what goes wrong with them. -/
def Drive.typed (input : List (Option Text)) : Drive → List Key × Option Failure
  | .keys ks => (ks, none)
  | .lines => Session.typed input

theorem run_drive (machine : Machine) (progress : Progress) (drv : Drive) :
    ∃ output complaints input, (drive Machine.host s progress drv).run machine =
      ((progress.after s machine.clock (drv.typed machine.input).1,
          (drv.typed machine.input).2),
        { machine with output, complaints, input }) := by
  cases drv with
  | keys ks =>
    refine ⟨machine.output, machine.complaints, machine.input, ?_⟩
    unfold drive
    dsimp only
    rw [run_bind_of_eq (run_pressAll progress ks)]
    rfl
  | lines =>
    obtain ⟨rest, output, complaints, hfold⟩ := @run_foldInput s
      { machine with output := machine.output ++ (display progress.state ++ prompt) }
      machine.input progress
    unfold drive pressLines
    dsimp only
    rw [run_bind_of_eq (Machine.run_print machine _),
      run_bind_of_eq (Machine.run_foldLines _ _ _ hfold)]
    dsimp only [Drive.typed]
    cases (typed machine.input).2 with
    | none => exact ⟨output ++ ['\n'], complaints, rest, rfl⟩
    | some failure => exact ⟨output, complaints, rest, rfl⟩

/-! ### The saved state -/

/-- The state that a session starts from, by what is found at the path of the saved state. -/
def restored : Except FileError ByteArray → State
  | .error _ => .initial
  | .ok bytes =>
    match textOfBytes? bytes with
    | none => .initial
    | some t =>
      match State.restore t with
      | .ok st => st
      | .error _ => State.initial.reset

theorem run_restore (machine : Machine) (p : Path) :
    ∃ warnings, (restore Machine.host p).run machine =
      (restored (machine.disk.read p), { machine with warnings }) := by
  unfold restore restored
  rw [run_bind_of_eq (Machine.run_readFile machine p)]
  cases machine.disk.read p with
  | error e =>
    cases e with
    | missing => exact ⟨_, rfl⟩
    | refused => exact ⟨_, rfl⟩
  | ok bytes =>
    dsimp only
    cases textOfBytes? bytes with
    | none => exact ⟨_, rfl⟩
    | some t =>
      dsimp only
      cases State.restore t with
      | error e => exact ⟨_, rfl⟩
      | ok st => exact ⟨_, rfl⟩

theorem consistent_restored (found : Except FileError ByteArray) : (restored found).Consistent := by
  unfold restored
  split
  · exact State.consistent_initial
  · split
    · exact State.consistent_initial
    · split
      · rename_i hrestore
        exact State.consistent_of_restore hrestore
      · exact State.consistent_reset _

/-- A session goes on from the state that was saved. -/
theorem restored_save (h : st.Consistent) (hcount : st.openCount ≤ Snapshot.maxCount) :
    restored (.ok (bytesOfText st.save)) = st := by
  unfold restored
  dsimp only
  rw [textOfBytes?_bytesOfText]
  dsimp only
  rw [h.restore_save_eq_ok hcount]

theorem run_writeState (h : machine.disk.write p (bytesOfText st.save) = some disk) :
    (save.writeState Machine.host st p).run machine = (none, { machine with disk }) := by
  unfold save.writeState
  rw [StateT.run_bind, Machine.run_writeFile, h]
  rfl

theorem run_save (h : machine.disk.save p (bytesOfText st.save) = some disk) :
    (save Machine.host st p).run machine = (none, { machine with disk }) := by
  obtain ⟨made, hmade, hwrite⟩ := Option.bind_eq_some_iff.1 h
  unfold save
  unfold Disk.withFolders at hmade
  cases hparent : p.parent? with
  | none =>
    rw [hparent] at hmade
    obtain rfl := Option.some.inj hmade
    exact run_writeState hwrite
  | some folder =>
    rw [hparent] at hmade
    dsimp only at hmade ⊢
    rw [StateT.run_bind, Machine.run_makeFolders, hmade]
    exact run_writeState hwrite

end Session

/-! ### The history -/

/-- The content of the file of a history, which an empty one need not have. -/
def Ledger.file? (l : Ledger) : Option ByteArray :=
  if l = [] then none else some (bytesOfText l.text)

namespace Disk

variable {d disk d' : Disk} {third : Option Path} {p q : Path} {c : ByteArray} {l : Ledger}
  {es : List Entry}

/-- What becomes of a disk when entries are inserted one after the other into the ledger at a path:
the last ledger is saved there, and nothing happens if there are no entries. -/
inductive Records (d : Disk) (q : Path) (l : Ledger) : List Entry → Disk → Prop
  | nothing : Records d q l [] d
  | saved {e : Entry} {es : List Entry} {d' : Disk} :
      d.save q (bytesOfText ((e :: es).foldl Ledger.insert l).text) = some d' →
      Records d q l (e :: es) d'

theorem Records.ledger?_eq (h : d.Records q l es d') (hl : d.ledger? q = some l)
    (hfits : ∀ e ∈ es.foldl Ledger.insert l, e.Fits) :
    d'.ledger? q = some (es.foldl Ledger.insert l) := by
  cases h with
  | nothing => exact hl
  | saved hsave => exact ledger?_of_ok (read_of_save hsave) hfits

theorem Records.read_eq (h : d.Records q l es d') (hspares : d.Spares p q) :
    d'.read p = d.read p := by
  cases h with
  | nothing => rfl
  | saved hsave => exact hspares.2 _ _ hsave

theorem ledger?_of_stage (h : d.Stage third p q c l.file? disk) (hapart : d.Apart third p q)
    (hfits : ∀ e ∈ l, e.Fits) : disk.ledger? q = some l := by
  have hread := h.read_second hapart
  unfold Ledger.file? at hread
  split at hread
  · next hnil =>
    rw [hnil]
    exact ledger?_of_missing hread
  · exact ledger?_of_ok hread hfits

theorem Records.stage (h : disk.Records q l es d') (hes : ∀ e ∈ es, e.id = none)
    (hstage : d.Stage third p q c l.file? disk) (hapart : d.Apart third p q) :
    d.Stage third p q c (es.foldl Ledger.insert l).file? d' := by
  cases h with
  | nothing => exact hstage
  | @saved e es _ hsave =>
    obtain ⟨disk', hsave', hstage'⟩ := hstage.save_second hapart
      (bytesOfText ((e :: es).foldl Ledger.insert l).text)
    obtain rfl := Option.some.inj (hsave.symm.trans hsave')
    have hlength := Ledger.length_foldl_insert l hes
    have hne : (e :: es).foldl Ledger.insert l ≠ [] := by
      intro hnil
      rw [hnil, List.length_nil, List.length_cons] at hlength
      omega
    rw [Ledger.file?, if_neg hne]
    exact hstage'

end Disk

namespace Session

variable {machine : Machine} {disk : Disk} {q : Path} {l : Ledger} {e : Entry} {es : List Entry}

/-- An entry is stored where files can be saved. -/
theorem run_attempt (hl : machine.disk.ledger? q = some l)
    (hsave : machine.disk.save q (bytesOfText (l.insert e).text) = some disk) :
    (attempt (Store.file Machine.host q) e).run machine = (.stored, { machine with disk }) := by
  unfold attempt
  rw [run_bind_of_eq (Store.run_insert_of_ledger? hl hsave)]
  rfl

/-- All entries of a session are stored, in order. -/
theorem run_drain {w : Writer} (hqueue : w.queue = es.map .record ++ [.stop])
    (hl : machine.disk.ledger? q = some l) (hsavable : machine.disk.Savable q)
    (hes : ∀ e ∈ es, e.id = none) (hfits : ∀ e ∈ es.foldl Ledger.insert l, e.Fits) :
    ∃ w' disk, (w.drain (attempt (Store.file Machine.host q)) (note Machine.host)).run machine =
      (w', { machine with disk }) ∧ machine.disk.Records q l es disk := by
  induction es generalizing w machine l with
  | nil =>
    have hnext : w.next? = none := by
      rw [Writer.next?, hqueue]
      rfl
    refine ⟨w.ended, machine.disk, ?_, .nothing⟩
    rw [Writer.drain_of_next?_eq_none _ _ hnext]
    rfl
  | cons e es ih =>
    have hnext : w.next? = some e := by
      rw [Writer.next?, hqueue]
      rfl
    have htold : (w.told .stored).queue = es.map .record ++ [.stop] := by
      rw [Writer.told, hqueue]
      rfl
    have hes' : ∀ e ∈ es, e.id = none := (List.forall_mem_cons.1 hes).2
    obtain ⟨disk, hsave⟩ := Option.isSome_iff_exists.1 (hsavable (bytesOfText (l.insert e).text))
    have hmem : ∀ old ∈ l.insert e, old ∈ es.foldl Ledger.insert (l.insert e) := fun _ hold =>
      Ledger.mem_foldl_insert hes' hold
    have hledger : ({ machine with disk } : Machine).disk.ledger? q = some (l.insert e) :=
      Disk.ledger?_of_ok (Disk.read_of_save hsave) fun old hold => hfits old (hmem old hold)
    obtain ⟨w', disk', hdrain, hrecords⟩ := ih htold hledger (Disk.savable_of_save hsave).2 hes'
      hfits
    refine ⟨w', disk', ?_, ?_⟩
    · rw [Writer.drain_of_next?_eq_some _ _ hnext, run_bind_of_eq (run_attempt hl hsave)]
      exact hdrain
    · -- each save replaces the one before it, so only the last one counts
      cases hrecords with
      | nothing => exact .saved hsave
      | saved hlast =>
        rw [Disk.save_save hsave] at hlast
        exact .saved hlast

theorem queue_sendAll {w : Writer} (h : w.running) (msgs : List Message) :
    (w.sendAll msgs).running ∧ (w.sendAll msgs).queue = w.queue ++ msgs := by
  induction msgs generalizing w with
  | nil => exact ⟨h, (List.append_nil _).symm⟩
  | cons msg msgs ih =>
    have hsend : (w.send msg).running := by
      rw [Writer.send, if_pos h]
      exact h
    obtain ⟨hrunning, hqueue⟩ := ih hsend
    rw [Writer.queue_send h, List.append_assoc] at hqueue
    exact ⟨hrunning, hqueue⟩

theorem run_writeHistory (retries : Nat) (hl : machine.disk.ledger? q = some l)
    (hsavable : machine.disk.Savable q) (hes : ∀ e ∈ es, e.id = none)
    (hfits : ∀ e ∈ es.foldl Ledger.insert l, e.Fits) :
    ∃ disk, (writeHistory Machine.host q retries es).run machine = ((), { machine with disk }) ∧
      machine.disk.Records q l es disk := by
  obtain ⟨hrunning, hqueue⟩ := queue_sendAll (w := { retries }) rfl (es.map .record)
  have hstop := Writer.queue_send hrunning .stop
  rw [hqueue] at hstop
  obtain ⟨w', disk, hdrain, hrecords⟩ := run_drain hstop hl hsavable hes hfits
  refine ⟨disk, ?_, hrecords⟩
  unfold writeHistory
  rw [run_bind_of_eq hdrain]
  rfl

end Session

end PocketCalculator
