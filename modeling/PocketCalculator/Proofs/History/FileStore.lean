import PocketCalculator.History.Store
import PocketCalculator.Proofs.History.Reading
import PocketCalculator.Proofs.Host.Disk
import PocketCalculator.Proofs.Host.Machine

/-!
# A ledger in a file

What the store in a file does on a machine whose disk holds a ledger at its path (`Holds`).
-/

namespace PocketCalculator

namespace Disk

/-- Whether the file at a path holds a ledger, or there is no file and the ledger is empty. -/
inductive Holds (d : Disk) (path : Path) : Ledger → Prop
  | missing : d.read path = .error .missing → d.Holds path []
  | file {loc : Location} {l : Ledger} : d.Ready path loc →
      d.node? loc = some (.file (bytesOfText l.text)) → d.Holds path l

/-- The ledger at a path: the one that the file there spells, or the empty one if there is no
file. -/
def ledger? (d : Disk) (path : Path) : Option Ledger :=
  match d.read path with
  | .error .missing => some []
  | .error .refused => none
  | .ok bytes => Ledger.read? (symbols bytes)

variable {d : Disk} {path : Path} {l : Ledger}

theorem ledger?_of_missing (h : d.read path = .error .missing) : d.ledger? path = some [] := by
  rw [ledger?, h]

theorem ledger?_of_ok (h : d.read path = .ok (bytesOfText l.text)) (hfits : ∀ e ∈ l, e.Fits) :
    d.ledger? path = some l := by
  rw [ledger?, h]
  exact Ledger.read?_bytesOfText hfits

theorem ledger?_eq_of_read_eq {d' : Disk} (h : d'.read path = d.read path) :
    d'.ledger? path = d.ledger? path := by
  rw [ledger?, ledger?, h]

theorem Holds.ledger?_eq (h : d.Holds path l) (hfits : ∀ e ∈ l, e.Fits) :
    d.ledger? path = some l := by
  cases h with
  | missing h => exact ledger?_of_missing h
  | file hready hnode => exact ledger?_of_ok (hready.read_eq_ok hnode) hfits

end Disk

namespace Store

variable {machine : Machine} {path : Path} {l : Ledger} {disk : Disk}

open Disk

theorem run_load_of_ledger? (h : machine.disk.ledger? path = some l) :
    (load Machine.host path).run machine = (.ok l, machine) := by
  unfold load
  rw [run_bind_of_eq (Machine.run_readFile machine path)]
  unfold ledger? at h
  cases hread : machine.disk.read path with
  | error e =>
    rw [hread] at h
    cases e with
    | missing =>
      obtain rfl := Option.some.inj h
      rfl
    | refused => cases h
  | ok bytes =>
    rw [hread] at h
    dsimp only at h ⊢
    rw [h]
    rfl

/-- A disk that holds a ledger is read as holding it. -/
theorem run_load (h : machine.disk.Holds path l) (hfits : ∀ e ∈ l, e.Fits) :
    (load Machine.host path).run machine = (.ok l, machine) :=
  run_load_of_ledger? (h.ledger?_eq hfits)

theorem run_save (machine : Machine) (path : Path) (l : Ledger) :
    (save Machine.host path l).run machine =
      match machine.disk.withFolders path with
      | none => (.error (.file path), machine)
      | some made =>
        match made.write path (bytesOfText l.text) with
        | some disk => (.ok (), { machine with disk })
        | none => (.error (.file path), { machine with disk := made }) := by
  have hwrite : ∀ made : Disk, StateT.run (do
      if ← Machine.host.writeFile path (bytesOfText l.text) then return .ok ()
      return .error (.file path) : StateM Machine (Except StoreError Unit))
        { machine with disk := made } =
      match made.write path (bytesOfText l.text) with
      | some disk => (.ok (), { machine with disk })
      | none => (.error (.file path), { machine with disk := made }) := by
    intro made
    rw [StateT.run_bind, Machine.run_writeFile]
    cases made.write path (bytesOfText l.text) <;> rfl
  unfold save withFolders
  cases path.parent? with
  | none => exact hwrite machine.disk
  | some folder =>
    rw [StateT.run_bind, Machine.run_makeFolders]
    dsimp only
    cases machine.disk.makeFolders folder with
    | none => rfl
    | some made => exact hwrite made

theorem holds_of_save (h : machine.disk.save path (bytesOfText l.text) = some disk) :
    disk.Holds path l := by
  obtain ⟨made, loc, -, -, hready, rfl⟩ := exists_ready_of_save h
  exact .file (hready.put _) (node?_put_self made (ne_nil_of_node?_ne hready.node?_ne) _)

theorem run_save_of_some (h : machine.disk.save path (bytesOfText l.text) = some disk) :
    (save Machine.host path l).run machine = (.ok (), { machine with disk }) := by
  obtain ⟨made, hmade, hwrite⟩ := Option.bind_eq_some_iff.1 h
  rw [run_save, hmade]
  dsimp only
  rw [hwrite]

theorem run_save_of_none (h : machine.disk.save path (bytesOfText l.text) = none) :
    ((save Machine.host path l).run machine).1 = .error (.file path) := by
  rw [run_save]
  cases hmade : machine.disk.withFolders path with
  | none => rfl
  | some made =>
    rw [Disk.save, hmade, Option.bind_some] at h
    dsimp only
    rw [h]

/-! ### The calls -/

variable {e : Entry}

theorem run_insert_of_ledger? (h : machine.disk.ledger? path = some l)
    (hsave : machine.disk.save path (bytesOfText (l.insert e).text) = some disk) :
    ((file Machine.host path).insert e).run machine =
      (.ok (l.withId e), { machine with disk }) := by
  unfold file
  dsimp only
  rw [run_bind_of_eq (run_load_of_ledger? h)]
  dsimp only
  rw [run_bind_of_eq (run_save_of_some hsave)]
  rfl

theorem run_insert_of_some (h : machine.disk.Holds path l) (hfits : ∀ e ∈ l, e.Fits)
    (hsave : machine.disk.save path (bytesOfText (l.insert e).text) = some disk) :
    ((file Machine.host path).insert e).run machine =
      (.ok (l.withId e), { machine with disk }) :=
  run_insert_of_ledger? (h.ledger?_eq hfits) hsave

/-- An insertion whose ledger cannot be saved fails for that reason. -/
theorem run_insert_of_none (h : machine.disk.Holds path l) (hfits : ∀ e ∈ l, e.Fits)
    (hsave : machine.disk.save path (bytesOfText (l.insert e).text) = none) :
    (((file Machine.host path).insert e).run machine).1 = .error (.file path) := by
  unfold file
  dsimp only
  rw [run_bind_of_eq (run_load h hfits)]
  dsimp only
  rw [run_bind_of_fst_eq (run_save_of_none hsave)]
  rfl

theorem run_entries_of_ledger? (h : machine.disk.ledger? path = some l) :
    (file Machine.host path).entries.run machine = (.ok l.newestFirst, machine) := by
  unfold file
  dsimp only
  rw [run_bind_of_eq (run_load_of_ledger? h)]
  rfl

theorem run_entries (h : machine.disk.Holds path l) (hfits : ∀ e ∈ l, e.Fits) :
    (file Machine.host path).entries.run machine = (.ok l.newestFirst, machine) :=
  run_entries_of_ledger? (h.ledger?_eq hfits)

theorem run_clear (h : machine.disk.Holds path l) :
    ∃ disk : Disk, (file Machine.host path).clear.run machine = (.ok (), { machine with disk }) ∧
      disk.Holds path [] ∧ (disk = machine.disk ∨ ∃ loc, disk.Ready path loc) := by
  unfold file
  dsimp only
  rw [run_bind_of_eq (Machine.run_removeFile machine path)]
  cases h with
  | missing h =>
    have hremove : machine.disk.remove path = .error .missing := by
      rw [remove, h]
    rw [hremove]
    exact ⟨machine.disk, rfl, .missing h, Or.inl rfl⟩
  | @file loc _ hready hnode =>
    have hnone : (machine.disk.erase loc).node? loc = none :=
      node?_erase_self (ne_nil_of_node?_ne hready.node?_ne)
    rw [hready.remove_eq hnode]
    exact ⟨_, rfl, .missing (hready.erase.read_eq_missing hnone), Or.inr ⟨loc, hready.erase⟩⟩

end Store

end PocketCalculator
