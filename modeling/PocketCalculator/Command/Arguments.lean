import PocketCalculator.History.Ledger
import PocketCalculator.Host.Path

/-!
# Arguments

The arguments of the program name a command, with options before or after it. Each option may be
given once on either side, where the one after the command counts. Two hyphens end the options;
before them every argument that starts with a hyphen is one.
-/

namespace PocketCalculator

/-- What the program is to do. -/
inductive Command where
  /-- Press the keys of a script. -/
  | keys (script : Text)
  /-- Load a number. -/
  | load (number : Text)
  /-- Press keys line by line. -/
  | repl
  /-- Load the result of a past calculation. -/
  | recall (id : Int)
  /-- List the past calculations. -/
  | history
  /-- Remove the past calculations. -/
  | clearHistory
deriving DecidableEq, Repr

/-- The options of a command. -/
structure Options where
  config : Option Path := none
  state : Option Path := none
  /-- Start without the saved state. -/
  fresh : Bool := false
  /-- Copy the readout at the end. -/
  copy : Bool := false
deriving DecidableEq, Repr

/-- What the arguments ask for. -/
inductive Request where
  | run (options : Options) (command : Command)
  | version
  | help
deriving DecidableEq, Repr

namespace Arguments

/-- The form of an argument. -/
inductive Form where
  /-- Two hyphens alone. -/
  | terminator
  /-- Two hyphens and a name, which may have a value behind an equals sign. -/
  | long (name : Text) (value : Option Text)
  /-- A hyphen and letters. -/
  | short (letters : Text)
  | plain
deriving DecidableEq, Repr

/-- The form of an argument. A hyphen alone is plain. -/
def form : Text → Form
  | ['-', '-'] => .terminator
  | '-' :: '-' :: rest =>
    .long (rest.takeWhile (· != '=')) <|
      match rest.dropWhile (· != '=') with
      | [] => none
      | _ :: value => some value
  | '-' :: c :: letters => .short (c :: letters)
  | _ => .plain

/-- Sets a path that is not set yet; a path is not empty. -/
def setPath (old : Option Path) (value : Text) : Option (Option Path) :=
  if old.isSome ∨ value.isEmpty then none else some (some value)

/-- Sets a switch that is not set yet and takes no value. -/
def setSwitch (old : Bool) (value : Option Text) : Option Bool :=
  if old ∨ value.isSome then none else some true

/-- The value of an option and the arguments after it: its own part behind the equals sign, or the
next argument, if that is plain. -/
def valueOf (value : Option Text) (rest : List Text) : Option (Text × List Text) :=
  match value, rest with
  | some v, rest => some (v, rest)
  | none, v :: rest => if form v = .plain then some (v, rest) else none
  | none, [] => none

/-- Takes an option with its value from the arguments. -/
def takeOption (o : Options) (name : Text) (value : Option Text) (rest : List Text) :
    Option (Options × List Text) :=
  if name = "config".toList then do
    let (v, rest) ← valueOf value rest
    return ({ o with config := ← setPath o.config v }, rest)
  else if name = "state".toList then do
    let (v, rest) ← valueOf value rest
    return ({ o with state := ← setPath o.state v }, rest)
  else if name = "fresh".toList then do
    return ({ o with fresh := ← setSwitch o.fresh value }, rest)
  else if name = "copy".toList then do
    return ({ o with copy := ← setSwitch o.copy value }, rest)
  else none

/-- The id that a text spells. -/
def id? (t : Text) : Option Int :=
  let (negative, digits) := match t with
    | '-' :: rest => (true, rest)
    | '+' :: rest => (false, rest)
    | rest => (false, rest)
  if isDigits digits then
    let n : Int := Nat.ofDigitChars 10 digits 0
    let n := if negative then -n else n
    if Entry.minInt ≤ n ∧ n ≤ Entry.maxInt then some n else none
  else none

/-- The name of a command, and whether it has an argument of its own. -/
def takesArgument? (name : Text) : Option Bool :=
  if ["keys".toList, "load".toList, "recall".toList].contains name then some true
  else if ["repl".toList, "history".toList, "clear-history".toList].contains name then some false
  else none

/-- The command with a name and an argument of its own. -/
def command? (name : Text) (argument : Option Text) : Option Command :=
  match argument with
  | some t =>
    if name = "keys".toList then some (.keys t)
    else if name = "load".toList then some (.load t)
    else if name = "recall".toList then (id? t).map .recall
    else none
  | none =>
    if name = "repl".toList then some .repl
    else if name = "history".toList then some .history
    else if name = "clear-history".toList then some .clearHistory
    else none

/-- The options before a command with those after it. -/
def merged (before after : Options) : Options where
  config := after.config <|> before.config
  state := after.state <|> before.state
  fresh := before.fresh || after.fresh
  copy := before.copy || after.copy

/-- Reads the arguments after a command. There are at most as many steps as arguments. -/
def readAfter (name : Text) (before : Options) :
    (fuel : Nat) → (ended : Bool) → Options → Option Text → List Text → Option Request
  | _, _, o, argument, [] => (command? name argument).map (.run (merged before o))
  | 0, _, _, _, _ => none
  | fuel + 1, ended, o, argument, arg :: rest =>
    match if ended then .plain else form arg with
    | .terminator => readAfter name before fuel true o argument rest
    | .long option value =>
      if option = "help".toList ∧ value.isNone then some .help
      else
        match takeOption o option value rest with
        | some (o, rest) => readAfter name before fuel false o argument rest
        | none => none
    | .short letters => if letters.head? = some 'h' then some .help else none
    | .plain =>
      if argument.isSome ∨ takesArgument? name ≠ some true ∨
          (name = "recall".toList ∧ (id? arg).isNone) then none
      else readAfter name before fuel ended o (some arg) rest

/-- What the arguments after `help` ask for: they may name one command. -/
def readHelp : List Text → Option Request
  | [] => some .help
  | [name] =>
    if name = "help".toList ∨ (takesArgument? name).isSome then some .help else none
  | _ => none

/-- Reads the arguments up to a command. -/
def readBefore : (fuel : Nat) → Options → List Text → Option Request
  | _, _, [] => none
  | 0, _, _ => none
  | fuel + 1, o, arg :: rest =>
    match form arg with
    | .terminator => none
    | .long option value =>
      if option = "version".toList ∧ value.isNone then some .version
      else if option = "help".toList ∧ value.isNone then some .help
      else
        match takeOption o option value rest with
        | some (o, rest) => readBefore fuel o rest
        | none => none
    | .short letters =>
      if letters.head? = some 'V' then some .version
      else if letters.head? = some 'h' then some .help
      else none
    | .plain =>
      if arg = "help".toList then readHelp rest
      else if (takesArgument? arg).isSome then readAfter arg o rest.length false {} none rest
      else none

/-- What some arguments ask for, if they are in order. -/
def read (args : List Text) : Option Request :=
  readBefore args.length {} args

end Arguments

end PocketCalculator
