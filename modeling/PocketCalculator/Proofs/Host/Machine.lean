import PocketCalculator.Host.Machine

/-!
# Running on a machine

What a program does on a machine, one effect after the other.
-/

namespace PocketCalculator

section Run

variable {σ α β : Type} {x : StateM σ α} {f : α → StateM σ β} {s s' : σ} {a : α}

/-- A program goes on with the answer of its first effect. -/
theorem run_bind_of_eq (h : x.run s = (a, s')) : (x >>= f).run s = (f a).run s' := by
  rw [StateT.run_bind, h]
  rfl

theorem run_bind_of_fst_eq (h : (x.run s).1 = a) :
    (x >>= f).run s = (f a).run (x.run s).2 := by
  rw [StateT.run_bind, ← h]
  rfl

theorem run_map_of_eq {g : α → β} (h : x.run s = (a, s')) : (g <$> x).run s = (g a, s') := by
  rw [StateT.run_map, h]
  rfl

theorem run_mapM_cons (f : α → StateM σ β) (a : α) (as : List α) (s : σ) :
    ((a :: as).mapM f).run s =
      (((f a).run s).1 :: ((as.mapM f).run ((f a).run s).2).1,
        ((as.mapM f).run ((f a).run s).2).2) := by
  rw [List.mapM_cons]
  rfl

theorem run_mapM_append (f : α → StateM σ β) (as bs : List α) (s : σ) :
    ((as ++ bs).mapM f).run s =
      (((as.mapM f).run s).1 ++ ((bs.mapM f).run ((as.mapM f).run s).2).1,
        ((bs.mapM f).run ((as.mapM f).run s).2).2) := by
  rw [List.mapM_append]
  rfl

/-- One group after the other is all of them. -/
theorem run_mapM_flatten (f : α → StateM σ β) (groups : List (List α)) (s : σ) :
    (groups.flatten.mapM f).run s =
      (((groups.mapM fun group : List α => group.mapM f).run s).1.flatten,
        ((groups.mapM fun group : List α => group.mapM f).run s).2) := by
  induction groups generalizing s with
  | nil => rfl
  | cons as groups ih =>
    rw [List.flatten_cons, run_mapM_append, run_mapM_cons, ih]
    rfl

end Run

namespace Machine

variable (machine : Machine) (p : Path)

theorem run_readFile : (host.readFile p).run machine = (machine.disk.read p, machine) := rfl

theorem run_writeFile (content : ByteArray) :
    (host.writeFile p content).run machine =
      match machine.disk.write p content with
      | some disk => (true, { machine with disk })
      | none => (false, machine) := by
  unfold host
  rw [StateT.run_bind]
  show StateT.run (match machine.disk.write p content with
    | some disk => _
    | none => _) machine = _
  cases machine.disk.write p content <;> rfl

theorem run_makeFolders :
    (host.makeFolders p).run machine =
      match machine.disk.makeFolders p with
      | some disk => (true, { machine with disk })
      | none => (false, machine) := by
  unfold host
  rw [StateT.run_bind]
  show StateT.run (match machine.disk.makeFolders p with
    | some disk => _
    | none => _) machine = _
  cases machine.disk.makeFolders p <;> rfl

theorem run_removeFile :
    (host.removeFile p).run machine =
      match machine.disk.remove p with
      | .ok disk => (.ok (), { machine with disk })
      | .error e => (.error e, machine) := by
  unfold host
  rw [StateT.run_bind]
  show StateT.run (match machine.disk.remove p with
    | .ok disk => _
    | .error e => _) machine = _
  cases machine.disk.remove p <;> rfl

theorem run_print (t : Text) :
    (host.print t).run machine = ((), { machine with output := machine.output ++ t }) := rfl

theorem run_copy (t : Text) :
    (host.copy t).run machine =
      match machine.clipboard.error with
      | some e => (.error e, machine)
      | none => (.ok (), { machine with
          clipboard := { machine.clipboard with content := some t } }) := by
  unfold host
  rw [StateT.run_bind]
  show StateT.run (match machine.clipboard.error with
    | some e => _
    | none => _) machine = _
  cases machine.clipboard.error <;> rfl

theorem run_foldLines {σ : Type} (f : σ → Option Text → StateM Machine (σ × Bool)) (acc : σ)
    {acc' : σ} {rest : List (Option Text)} {machine' : Machine}
    (h : (foldInput f machine.input acc).run machine = ((acc', rest), machine')) :
    (host.foldLines f acc).run machine = (acc', { machine' with input := rest }) := by
  have hget : (get : StateM Machine Machine).run machine = (machine, machine) := rfl
  unfold host
  dsimp only
  rw [run_bind_of_eq hget, run_bind_of_eq h]
  rfl

end Machine

end PocketCalculator
