import PocketCalculator.Config.Load
import PocketCalculator.Proofs.Host.Machine

/-!
# Loading the configuration on a machine

Loading changes nothing and depends on one file only; the separators it answers are acceptable.
-/

namespace PocketCalculator

namespace Settings

variable {machine : Machine} {places : Places} {asked : Option Path} {settings : Settings}

/-- Loading the settings only reads one file. -/
theorem run_load (machine machine' : Machine)
    (hread : ∀ path, (asked <|> places.configFile) = some path →
      machine'.disk.read path = machine.disk.read path) :
    (load Machine.host places asked).run machine' =
      (((load Machine.host places asked).run machine).1, machine') := by
  unfold load
  cases hpath : asked <|> places.configFile with
  | none => rfl
  | some path =>
    dsimp only
    rw [run_bind_of_eq (Machine.run_readFile machine' path),
      run_bind_of_eq (Machine.run_readFile machine path), hread path hpath]
    cases machine.disk.read path with
    | ok bytes => rfl
    | error e =>
      dsimp only
      split <;> rfl

theorem accepted_of_read {path : Path} {bytes : ByteArray}
    (h : Settings.read path bytes = .ok settings) : settings.separators.Accepted := by
  unfold Settings.read at h
  split at h
  · cases h
  · split at h
    · cases h
    · split at h
      · cases h
      · rename_i hcheck
        obtain rfl := Except.ok.inj h
        exact Separators.check_eq_ok_iff.1 hcheck

theorem accepted_of_load
    (h : ((load Machine.host places asked).run machine).1 = .ok settings) :
    settings.separators.Accepted := by
  have hdefault : ({} : Settings).separators.Accepted := by decide +kernel
  unfold load at h
  split at h
  · obtain rfl := Except.ok.inj h
    exact hdefault
  · rw [run_bind_of_eq (Machine.run_readFile machine _)] at h
    split at h
    · exact accepted_of_read h
    · split at h
      · obtain rfl := Except.ok.inj h
        exact hdefault
      · cases h

end Settings

end PocketCalculator
