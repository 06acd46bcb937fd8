import PocketCalculator.Command.Arguments
import PocketCalculator.Proofs.Text.Runs

/-!
# Arguments are read back

Options that are written before a command in a plain way are read as what they are, and whatever
stands behind two hyphens is the argument of the command.
-/

namespace PocketCalculator

namespace Arguments

/-- An option with a value as one argument. -/
def written (name value : Text) : Text :=
  '-' :: '-' :: (name ++ '=' :: value)

theorem form_written {name value : Text} (hname : '=' ∉ name) :
    form (written name value) = .long name (some value) := by
  have hstops : StopsAt (· != '=') ('=' :: value) := stopsAt_cons.2 rfl
  have hother : ∀ c ∈ name, (c != '=') = true := fun c hc =>
    bne_iff_ne.2 (ne_of_mem_of_not_mem hc hname)
  have htake := takeWhile_run hother hstops
  have hdrop := dropWhile_run hother hstops
  cases name with
  | nil => rfl
  | cons c name =>
    show Form.long _ _ = _
    rw [List.cons_append] at htake hdrop
    rw [List.cons_append, htake, hdrop]

/-- A switch as an argument. -/
def switch (name : Text) : Text :=
  '-' :: '-' :: name

variable {o o' : Options} {fuel : Nat} {path name arg : Text} {value : Option Text}
  {rest : List Text}

/-! ### Options before a command -/

theorem readBefore_of_takeOption (hform : form arg = .long name value)
    (hname : name ≠ "version".toList ∧ name ≠ "help".toList)
    (htake : takeOption o name value rest = some (o', rest)) :
    readBefore (fuel + 1) o (arg :: rest) = readBefore fuel o' rest := by
  rw [readBefore, hform]
  dsimp only
  rw [if_neg fun h => hname.1 h.1, if_neg fun h => hname.2 h.1, htake]

theorem setPath_none (hpath : path ≠ []) : setPath none path = some (some path) := by
  simpa [setPath] using hpath

/-- The argument for a path, if there is one. -/
def pathArguments (name : Text) (path : Option Path) : List Text :=
  (path.map (written name)).toList

/-- The argument for a switch, if it is on. -/
def switchArguments (name : Text) (on : Bool) : List Text :=
  if on then [switch name] else []

theorem readBefore_pathArguments {path : Option Path} (hequals : '=' ∉ name)
    (hname : name ≠ "version".toList ∧ name ≠ "help".toList) (hnone : path = none → o' = o)
    (htake : ∀ p, path = some p → takeOption o name (some p) rest = some (o', rest)) :
    let args := pathArguments name path
    readBefore (args.length + fuel) o (args ++ rest) = readBefore fuel o' rest := by
  intro args
  rw [Nat.add_comm]
  cases path with
  | none =>
    rw [hnone rfl]
    rfl
  | some p => exact readBefore_of_takeOption (form_written hequals) hname (htake p rfl)

theorem readBefore_switchArguments {on : Bool} (hform : form (switch name) = .long name none)
    (hname : name ≠ "version".toList ∧ name ≠ "help".toList) (hoff : on = false → o' = o)
    (htake : on = true → takeOption o name none rest = some (o', rest)) :
    let args := switchArguments name on
    readBefore (args.length + fuel) o (args ++ rest) = readBefore fuel o' rest := by
  intro args
  rw [Nat.add_comm]
  cases on with
  | false =>
    rw [hoff rfl]
    rfl
  | true => exact readBefore_of_takeOption hform hname (htake rfl)

theorem readBefore_config {config : Option Path} (hconfig : config ≠ some [])
    (ho : o.config = none) :
    let args := pathArguments "config".toList config
    readBefore (args.length + fuel) o (args ++ rest) = readBefore fuel { o with config } rest := by
  refine readBefore_pathArguments (by decide) (by decide) (fun h => by rw [h, ← ho]) ?_
  rintro path rfl
  have hset := setPath_none fun h => hconfig (congrArg some h)
  simp [takeOption, valueOf, ho, hset]

theorem readBefore_state {state : Option Path} (hstate : state ≠ some []) (ho : o.state = none) :
    let args := pathArguments "state".toList state
    readBefore (args.length + fuel) o (args ++ rest) = readBefore fuel { o with state } rest := by
  refine readBefore_pathArguments (by decide) (by decide) (fun h => by rw [h, ← ho]) ?_
  rintro path rfl
  have hset := setPath_none fun h => hstate (congrArg some h)
  simp [takeOption, valueOf, ho, hset]

theorem readBefore_fresh {fresh : Bool} (ho : o.fresh = false) :
    let args := switchArguments "fresh".toList fresh
    readBefore (args.length + fuel) o (args ++ rest) = readBefore fuel { o with fresh } rest := by
  refine readBefore_switchArguments (by decide) (by decide) (fun h => by rw [h, ← ho]) ?_
  rintro rfl
  simp [takeOption, setSwitch, ho]

theorem readBefore_copy {copy : Bool} (ho : o.copy = false) :
    let args := switchArguments "copy".toList copy
    readBefore (args.length + fuel) o (args ++ rest) = readBefore fuel { o with copy } rest := by
  refine readBefore_switchArguments (by decide) (by decide) (fun h => by rw [h, ← ho]) ?_
  rintro rfl
  simp [takeOption, setSwitch, ho]

end Arguments

open Arguments

/-- Options as arguments. -/
def Options.arguments (o : Options) : List Text :=
  pathArguments "config".toList o.config ++ (pathArguments "state".toList o.state ++
    (switchArguments "fresh".toList o.fresh ++ switchArguments "copy".toList o.copy))

/-- Whether the paths in some options can be given: they are not empty. -/
def Options.Given (o : Options) : Prop := o.config ≠ some [] ∧ o.state ≠ some []

namespace Arguments

variable {o : Options} {fuel : Nat} {rest : List Text}

theorem readBefore_arguments (ho : o.Given) :
    readBefore (o.arguments.length + fuel) {} (o.arguments ++ rest) = readBefore fuel o rest := by
  rw [Options.arguments]
  simp only [List.length_append, Nat.add_assoc, List.append_assoc]
  rw [readBefore_config ho.1 rfl, readBefore_state ho.2 rfl, readBefore_fresh rfl,
    readBefore_copy rfl]

/-! ### Commands -/

theorem merged_empty (o : Options) : merged o {} = o := by
  simp [merged]

/-- What stands behind two hyphens is the script, whatever its first character. -/
theorem read_keys (ho : o.Given) (script : Text) :
    read (o.arguments ++ ["keys".toList, "--".toList, script]) = some (.run o (.keys script)) := by
  rw [read, List.length_append, readBefore_arguments ho]
  show (some (Request.run (merged o {}) (.keys script))) = _
  rw [merged_empty]

theorem read_repl (ho : o.Given) :
    read (o.arguments ++ ["repl".toList]) = some (.run o .repl) := by
  rw [read, List.length_append, readBefore_arguments ho]
  show (some (Request.run (merged o {}) .repl)) = _
  rw [merged_empty]

end Arguments

end PocketCalculator
