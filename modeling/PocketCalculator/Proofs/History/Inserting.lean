import PocketCalculator.Proofs.History.Contents

/-!
# Inserting into a file of any content

What is at the path of a store need not be a ledger that the store wrote, nor a file at all. An
insertion that fails changes no file: it has made folders at most (`run_insert_of_error`). One that
succeeds has read a ledger and saved it with the entry put into it (`run_insert_of_ok`), and what it
has saved is read again, since the numbers of a ledger that was read fit the records
(`Disk.fits_of_ledger?`).
-/

namespace PocketCalculator

/-! ### The ledger -/

namespace Ledger

variable {l : Ledger} {e : Entry} {id : Int}

/-- What putting an entry into a ledger comes to: it takes the place of the first entry that has its
id, or stands behind all others if none has. -/
inductive Puts (e : Entry) : Ledger → Ledger → Prop
  | replaced {before after : Ledger} {old : Entry} : old.id = e.id →
      (∀ other ∈ before, other.id ≠ e.id) → Puts e (before ++ old :: after) (before ++ e :: after)
  | added {l : Ledger} : (∀ other ∈ l, other.id ≠ e.id) → Puts e l (l ++ [e])

theorem Puts.cons {l' : Ledger} (h : Puts e l l') {first : Entry} (hfirst : first.id ≠ e.id) :
    Puts e (first :: l) (first :: l') := by
  cases h with
  | replaced hold hbefore => exact .replaced hold (List.forall_mem_cons.2 ⟨hfirst, hbefore⟩)
  | added hl => exact .added (List.forall_mem_cons.2 ⟨hfirst, hl⟩)

theorem puts_replaceFirst (hid : e.id = some id) (h : some id ∈ l.map Entry.id) :
    Puts e l (l.replaceFirst id e) := by
  induction l with
  | nil => cases h
  | cons first rest ih =>
    rw [replaceFirst]
    split
    · rename_i hfirst
      exact .replaced (hfirst.trans hid.symm) fun _ hother => absurd hother List.not_mem_nil
    · rename_i hfirst
      have hrest : some id ∈ rest.map Entry.id := by
        rw [List.map_cons, List.mem_cons] at h
        exact h.resolve_left (Ne.symm hfirst)
      exact (ih hrest).cons (hid ▸ hfirst)

theorem puts_insert (l : Ledger) (e : Entry) : Puts (l.withId e) l (l.insert e) := by
  obtain ⟨id, hid, ⟨hmem, hinsert⟩ | ⟨hmem, hinsert⟩⟩ := l.insert_cases e
  · rw [hinsert]
    exact puts_replaceFirst hid hmem
  · rw [hinsert]
    refine .added fun other hother heq => hmem ?_
    rw [← hid, ← heq]
    exact List.mem_map_of_mem hother

end Ledger

namespace Disk

variable {d : Disk} {path : Path} {l : Ledger}

theorem fits_of_ledger? (h : d.ledger? path = some l) : ∀ e ∈ l, e.Fits := by
  unfold ledger? at h
  split at h
  · obtain rfl := Option.some.inj h
    exact nofun
  · cases h
  · exact (Ledger.read?_eq_some_iff.1 h).1

end Disk

namespace Store

variable {machine : Machine} {path : Path} {l : Ledger} {e : Entry} {err : StoreError}

open Disk

/-! ### Failures -/

theorem run_load_of_refused (h : machine.disk.read path = .error .refused) :
    (load Machine.host path).run machine = (.error (.file path), machine) := by
  unfold load
  rw [run_bind_of_eq (Machine.run_readFile machine path), h]
  rfl

theorem run_load_of_garbage {bytes : ByteArray} (h : machine.disk.read path = .ok bytes)
    (hbytes : Ledger.read? (symbols bytes) = none) :
    (load Machine.host path).run machine = (.error (.content path), machine) := by
  unfold load
  rw [run_bind_of_eq (Machine.run_readFile machine path), h]
  dsimp only
  rw [hbytes]
  rfl

theorem run_insert_of_load_error
    (h : (load Machine.host path).run machine = (.error err, machine)) :
    ((file Machine.host path).insert e).run machine = (.error err, machine) := by
  unfold file
  dsimp only
  rw [run_bind_of_eq h]
  rfl

theorem run_entries_of_load_error
    (h : (load Machine.host path).run machine = (.error err, machine)) :
    (file Machine.host path).entries.run machine = (.error err, machine) := by
  unfold file
  dsimp only
  rw [run_bind_of_eq h]
  rfl

/-- Where saving fails no file is read that could have been overwritten. -/
theorem disk_of_save_none (h : machine.disk.save path (bytesOfText l.text) = none) :
    let after := ((save Machine.host path l).run machine).2.disk
    machine.disk.SameFiles after ∧
      ∀ bytes, after.read path = .ok bytes ↔ machine.disk.read path = .ok bytes := by
  rw [run_save]
  cases hmade : machine.disk.withFolders path with
  | none => exact ⟨.refl _, fun _ => Iff.rfl⟩
  | some made =>
    have hwrite : made.write path (bytesOfText l.text) = none := by
      rwa [Disk.save, hmade, Option.bind_some] at h
    dsimp only
    rw [hwrite]
    refine ⟨sameFiles_withFolders hmade, fun bytes => ⟨fun hread => ?_, fun hread => ?_⟩⟩
    · exact absurd hwrite (write_ne_none_of_read hread _)
    · exact absurd hwrite (write_ne_none_of_read (read_withFolders hmade hread) _)

theorem run_load_of_none (h : machine.disk.ledger? path = none) :
    ∃ err, (load Machine.host path).run machine = (.error err, machine) := by
  unfold ledger? at h
  split at h
  · cases h
  · rename_i hread
    exact ⟨_, run_load_of_refused hread⟩
  · rename_i hread
    exact ⟨_, run_load_of_garbage hread h⟩

theorem run_insert_of_unsaved (h : machine.disk.ledger? path = some l)
    (hsave : machine.disk.save path (bytesOfText (l.insert e).text) = none) :
    ((file Machine.host path).insert e).run machine =
      (.error (.file path), ((save Machine.host path (l.insert e)).run machine).2) := by
  unfold file
  dsimp only
  rw [run_bind_of_eq (run_load_of_ledger? h)]
  dsimp only
  rw [run_bind_of_fst_eq (run_save_of_none hsave)]
  rfl

theorem run_insert_of_error
    (h : (((file Machine.host path).insert e).run machine).1 = .error err) :
    let after := (((file Machine.host path).insert e).run machine).2.disk
    machine.disk.SameFiles after ∧
      ∀ bytes, after.read path = .ok bytes ↔ machine.disk.read path = .ok bytes := by
  cases hledger : machine.disk.ledger? path with
  | none =>
    obtain ⟨err', hload⟩ := run_load_of_none hledger
    rw [run_insert_of_load_error hload]
    exact ⟨.refl _, fun _ => Iff.rfl⟩
  | some l =>
    cases hsave : machine.disk.save path (bytesOfText (l.insert e).text) with
    | none =>
      rw [run_insert_of_unsaved hledger hsave]
      exact disk_of_save_none hsave
    | some disk =>
      rw [run_insert_of_ledger? hledger hsave] at h
      cases h

/-! ### Successes -/

theorem run_insert_of_ok {stored : Entry}
    (h : (((file Machine.host path).insert e).run machine).1 = .ok stored) :
    ∃ l disk, machine.disk.ledger? path = some l ∧ stored = l.withId e ∧
      machine.disk.save path (bytesOfText (l.insert e).text) = some disk ∧
      ((file Machine.host path).insert e).run machine = (.ok stored, { machine with disk }) := by
  cases hledger : machine.disk.ledger? path with
  | none =>
    obtain ⟨err, hload⟩ := run_load_of_none hledger
    rw [run_insert_of_load_error hload] at h
    cases h
  | some l =>
    cases hsave : machine.disk.save path (bytesOfText (l.insert e).text) with
    | none =>
      rw [run_insert_of_unsaved hledger hsave] at h
      cases h
    | some disk =>
      have hrun := run_insert_of_ledger? hledger hsave
      rw [hrun] at h
      obtain rfl := Except.ok.inj h
      exact ⟨l, disk, rfl, rfl, hsave, hrun⟩

/-- What has been inserted is read again. -/
theorem run_load_of_saved {disk : Disk} (h : machine.disk.ledger? path = some l)
    (htakes : l.Takes e)
    (hsave : machine.disk.save path (bytesOfText (l.insert e).text) = some disk) :
    (load Machine.host path).run { machine with disk } =
      (.ok (l.insert e), { machine with disk }) :=
  run_load_of_ledger? (ledger?_of_ok (read_of_save hsave)
    (Ledger.fits_insert (fits_of_ledger? h) htakes))

theorem ledger?_of_run_load (h : (load Machine.host path).run machine = (.ok l, machine)) :
    machine.disk.ledger? path = some l := by
  cases hledger : machine.disk.ledger? path with
  | none =>
    obtain ⟨err, hload⟩ := run_load_of_none hledger
    cases hload.symm.trans h
  | some l' =>
    cases (run_load_of_ledger? hledger).symm.trans h
    rfl

/-- A file holds the ledger that it spells, whoever wrote it. -/
theorem run_load_eq_ok_iff {bytes : ByteArray} (h : machine.disk.read path = .ok bytes) :
    (load Machine.host path).run machine = (.ok l, machine) ↔ l.SpelledBy (symbols bytes) := by
  have hledger : machine.disk.ledger? path = Ledger.read? (symbols bytes) := by
    rw [ledger?, h]
  rw [← Ledger.read?_eq_some_iff, ← hledger]
  exact ⟨ledger?_of_run_load, run_load_of_ledger?⟩

theorem run_load_of_unspelled {bytes : ByteArray} (h : machine.disk.read path = .ok bytes)
    (hbytes : ∀ l, ¬ Ledger.SpelledBy l (symbols bytes)) :
    (load Machine.host path).run machine = (.error (.content path), machine) :=
  run_load_of_garbage h (Option.eq_none_iff_forall_ne_some.2 fun l hl =>
    hbytes l (Ledger.read?_eq_some_iff.1 hl))

theorem run_entries_snd (machine : Machine) (path : Path) :
    ((file Machine.host path).entries.run machine).2 = machine := by
  cases hledger : machine.disk.ledger? path with
  | none =>
    obtain ⟨err, hload⟩ := run_load_of_none hledger
    rw [run_entries_of_load_error hload]
  | some l => rw [run_entries_of_ledger? hledger]

/-- An insertion into the file at a path, whatever is there: nothing, any bytes, a folder, or a file
where the path needs a folder. If it fails, no file is made or changed, and the bytes at the path
are what they were. A file holds the ledger that its bytes spell, in whatever way they spell it;
where there is no file the ledger is empty. Bytes that spell no ledger make the insertion fail for
that reason, and listing as well; so does a file that cannot be read. If the insertion succeeds, a
ledger was read, and the one that is read afterwards has the entry in the place of the first one
with its id, or behind all others if there was none; no other file changes. The entry is stored as
it is, or with an id above all others if it has none. An insertion into a ledger succeeds where
files can be saved. Listing changes nothing. -/
theorem insert_file (machine : Machine) (path : Path) {e : Entry} (hfits : e.Fits)
    (hmax : e.id = none → ∀ l, (load Machine.host path).run machine = (.ok l, machine) →
      ∀ old ∈ l, old.id ≠ some Entry.maxInt) :
    let store := file Machine.host path
    let inserted := (store.insert e).run machine
    let listed := store.entries.run machine
    let before := machine.disk
    let after := inserted.2.disk
    (∀ err, inserted.1 = .error err → before.SameFiles after ∧
        ∀ bytes, after.read path = .ok bytes ↔ before.read path = .ok bytes) ∧
      (∀ bytes, before.read path = .ok bytes →
        (∀ l, (load Machine.host path).run machine = (.ok l, machine) ↔
            Ledger.SpelledBy l (symbols bytes)) ∧
          ((∀ l, ¬ Ledger.SpelledBy l (symbols bytes)) →
            inserted = (.error (.content path), machine) ∧
              listed = (.error (.content path), machine))) ∧
      (before.read path = .error .refused →
        inserted = (.error (.file path), machine) ∧ listed = (.error (.file path), machine)) ∧
      (before.read path = .error .missing →
        (load Machine.host path).run machine = (.ok [], machine)) ∧
      (∀ stored, inserted.1 = .ok stored → ∃ l l',
        (load Machine.host path).run machine = (.ok l, machine) ∧
          (load Machine.host path).run inserted.2 = (.ok l', inserted.2) ∧
          Ledger.Puts stored l l' ∧
          (e.id.isSome → stored = e) ∧
          (e.id = none → ∃ id, stored = { e with id := some id } ∧ id ≤ Entry.maxInt ∧
            ∀ old ∈ l, ∀ id', old.id = some id' → id' < id) ∧
          ∃ loc, after.locate path = .ok loc ∧ before.SameFilesBut loc after) ∧
      (∀ l, (load Machine.host path).run machine = (.ok l, machine) → before.Savable path →
        ∃ stored, inserted.1 = .ok stored) ∧
      listed.2 = machine := by
  intro store inserted listed before after
  refine ⟨fun err herr => run_insert_of_error herr, fun bytes hread =>
      ⟨fun l => run_load_eq_ok_iff hread, fun hbytes => ?_⟩,
    fun hread => ?_, fun hread => run_load_of_ledger? (ledger?_of_missing hread), ?_, ?_,
    run_entries_snd machine path⟩
  · have hload := run_load_of_unspelled hread hbytes
    exact ⟨run_insert_of_load_error hload, run_entries_of_load_error hload⟩
  · have hload := run_load_of_refused hread
    exact ⟨run_insert_of_load_error hload, run_entries_of_load_error hload⟩
  · intro stored hstored
    obtain ⟨l, disk, hledger, rfl, hsave, hrun⟩ := run_insert_of_ok hstored
    have hload := run_load_of_ledger? hledger
    have hfitsAll := fits_of_ledger? hledger
    have hinserted : inserted = (.ok (l.withId e), { machine with disk }) := hrun
    have hafter : after = disk := congrArg (·.2.disk) hinserted
    rw [hinserted, hafter]
    refine ⟨l, l.insert e, hload,
      run_load_of_saved hledger ⟨hfits, fun hid => hmax hid l hload⟩ hsave, l.puts_insert e,
      fun hid => ?_, fun hid => ?_, sameFilesBut_of_save hsave⟩
    · obtain ⟨id, hid⟩ := Option.isSome_iff_exists.1 hid
      exact l.withId_of_some hid
    · exact ⟨l.nextId, l.withId_of_none hid,
        (Ledger.bounds_nextId hfitsAll (hmax hid l hload)).2,
        fun old hold id' hid' => Ledger.lt_nextId hold hid'⟩
  · intro l hload hsavable
    obtain ⟨disk, hsave⟩ := Option.isSome_iff_exists.1 (hsavable (bytesOfText (l.insert e).text))
    have hrun : inserted = _ := run_insert_of_ledger? (ledger?_of_run_load hload) hsave
    exact ⟨l.withId e, congrArg Prod.fst hrun⟩

/-- A file that no store has written: an entry without an id, and with a field of another tool, and
two entries with one id, as arrays. -/
theorem insert_file_foreign :
    let content : Text :=
      "[\x7b\"result\":\"\\u0061\",\"timestamp\":5,\"by\":[],\"formula\":\"b\"\x7d,
      [7,\"c\",\"d\",-1], [7,\"e\",\"f\",0]]".toList
    let machine : Machine := { disk := ⟨[([['h']], .file (bytesOfText content))], []⟩ }
    let before : Ledger :=
      [⟨none, ['b'], ['a'], 5⟩, ⟨some 7, ['c'], ['d'], -1⟩, ⟨some 7, ['e'], ['f'], 0⟩]
    let inserted := ((file Machine.host ['h']).insert ⟨none, ['1'], ['1'], 3⟩).run machine
    (load Machine.host ['h']).run machine = (.ok before, machine) ∧
      ∃ stored after, inserted.1 = .ok stored ∧
        (load Machine.host ['h']).run inserted.2 = (.ok after, inserted.2) ∧
        Ledger.Puts stored before after := by
  intro content machine before inserted
  have hspells : Ledger.read? (content.map some) = some before := by decide +kernel
  clear_value content
  have hload : (load Machine.host ['h']).run machine = (.ok before, machine) := by
    have hread : machine.disk.read ['h'] = .ok (bytesOfText content) := rfl
    refine run_load_of_ledger? ?_
    rw [ledger?, hread, ← hspells, ← symbols_bytesOfText]
  have hsave : machine.disk.save ['h'] .empty = some (machine.disk.put [['h']] (.file .empty)) :=
    rfl
  have hfits : Entry.Fits ⟨none, ['1'], ['1'], 3⟩ :=
    ⟨fun _ hid => absurd hid.symm (Option.some_ne_none _), by decide⟩
  have hmax : ∀ l, (load Machine.host ['h']).run machine = (.ok l, machine) →
      ∀ old ∈ l, old.id ≠ some Entry.maxInt := by
    intro l hl
    have hbefore : l = before := Except.ok.inj (congrArg Prod.fst (hl.symm.trans hload))
    rw [hbefore]
    decide
  obtain ⟨-, -, -, -, hok, hlive, -⟩ := insert_file machine ['h'] hfits fun _ => hmax
  obtain ⟨stored, hstored⟩ := hlive before hload (Disk.savable_of_save hsave).1
  obtain ⟨l, after, hl, hafter, hputs, -⟩ := hok stored hstored
  have hbefore : l = before := Except.ok.inj (congrArg Prod.fst (hl.symm.trans hload))
  exact ⟨hload, stored, after, hstored, hafter, hbefore ▸ hputs⟩

end Store

end PocketCalculator
