import PocketCalculator.Config.Settings

/-!
# Default places

Where the configuration, the history and the state of the session are kept unless something else
is set: in folders of the user that the environment can name with an absolute path.
-/

namespace PocketCalculator

/-- The name of the program. -/
def programName : Text := "padcalc".toList

/-- The version of the program. -/
def programVersion : Text := "0.1.0".toList

/-- The folders of the user for configurations, for data and for states. -/
structure Places where
  config : Option Path
  data : Option Path
  state : Option Path
deriving DecidableEq, Repr

namespace Places

/-- The folder that a variable names, or else a folder in the home folder. -/
def folder (home : Option Path) (named? : Option Path) (inHome : Path) : Option Path :=
  match named?.filter Path.isAbsolute with
  | some path => some path
  | none => home.map (Path.join · inHome)

/-- The folders of an environment with given variables. -/
def ofEnvironment (home configHome dataHome stateHome : Option Path) : Places where
  config := folder home configHome ".config".toList
  data := folder home dataHome ".local/share".toList
  state := folder home stateHome ".local/state".toList

/-- A file of the program in a folder. -/
def fileIn (folder : Path) (name : String) : Path :=
  Path.join (Path.join folder programName) name.toList

/-- The place of the configuration. -/
def configFile (places : Places) : Option Path :=
  places.config.map (fileIn · "config.toml")

/-- The place of the history. -/
def historyFile (places : Places) (s : Settings) : Option Path :=
  match s.historyPath with
  | some path => some path
  | none => places.data.map (fileIn · "history.json")

/-- The place of the state of the session. -/
def stateFile (places : Places) (s : Settings) : Option Path :=
  match s.statePath with
  | some path => some path
  | none =>
    match places.state with
    | some folder => some (fileIn folder "state.json")
    | none => places.data.map (fileIn · "state.json")

end Places

end PocketCalculator
