import PocketCalculator.Config.Places
import PocketCalculator.Host.Basic
import PocketCalculator.Text.Utf8
import PocketCalculator.Toml.Read

/-!
# Loading the configuration

The configuration is read from the file that the user asks for, which has to exist, or from its
default place, where it may be missing. It has to be TOML, its settings must have the right types,
and its separators have to be acceptable.
-/

namespace PocketCalculator

/-- Why a configuration cannot be loaded. -/
inductive ConfigError where
  /-- The file cannot be read, or is no text. -/
  | unreadable (path : Path)
  /-- The text is no TOML, or a setting has the wrong type. -/
  | unparsable (path : Path)
  /-- The separators are not acceptable. -/
  | separators (e : SeparatorError)
deriving DecidableEq, Repr

/-- The text that reports why a configuration cannot be loaded. -/
def ConfigError.message : ConfigError → String
  | .unreadable path => s!"failed to read config {String.ofList path}"
  | .unparsable path => s!"failed to parse config {String.ofList path}"
  | .separators e => s!"invalid number format: {e.reason}"

namespace Settings

/-- The settings in the bytes of a file. -/
def read (path : Path) (bytes : ByteArray) : Except ConfigError Settings :=
  match textOfBytes? bytes with
  | none => .error (.unreadable path)
  | some t =>
    match (Toml.read? t).bind ofDocument? with
    | none => .error (.unparsable path)
    | some s =>
      match s.separators.check with
      | .error e => .error (.separators e)
      | .ok () => .ok s

/-- Loads the settings from the path that the user asks for, or from their default place. -/
def load {m : Type → Type} [Monad m] (host : Host m) (places : Places) (asked : Option Path) :
    m (Except ConfigError Settings) :=
  match asked <|> places.configFile with
  | none => pure (.ok {})
  | some path => do
    match ← host.readFile path with
    | .ok bytes => return read path bytes
    | .error e =>
      if e = .missing ∧ asked.isNone then return .ok {} else return .error (.unreadable path)

end Settings

end PocketCalculator
