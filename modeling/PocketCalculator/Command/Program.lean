import PocketCalculator.Command.Session

/-!
# The program

The program reads its arguments and its configuration and runs a command. Its exit code is 0 if
all went well, 1 if a command failed and 2 if the arguments are not in order.
-/

namespace PocketCalculator

namespace Program

/-- How the program is called. -/
def usage : Text :=
  ("Usage: padcalc [--config PATH] [--state PATH] [--fresh] [--copy] COMMAND\n\n" ++
    "Commands: keys SCRIPT, load NUMBER, repl, recall ID, history, clear-history\n").toList

/-- The line of a list of past calculations for an entry. -/
def historyLine (e : Entry) : Text :=
  let id := match e.id with
    | some id => (toString id).toList
    | none => []
  id ++ '\t' :: e.formula ++ " = ".toList ++ e.result ++ ['\n']

section

variable {m : Type → Type} [Monad m] (host : Host m) (places : Places)

/-- Lists the past calculations; answers what went wrong. -/
def listHistory (path : Path) : m (Option Failure) := do
  match ← (Store.file host path).entries with
  | .error e => return some (.store e)
  | .ok [] =>
    host.print "History is empty\n".toList
    return none
  | .ok entries =>
    host.print (entries.flatMap historyLine)
    return none

/-- Removes the past calculations; answers what went wrong. -/
def clearHistory (path : Path) : m (Option Failure) := do
  match ← (Store.file host path).clear with
  | .error e => return some (.store e)
  | .ok () =>
    host.print "History cleared\n".toList
    return none

/-- Runs a session on the result of the newest past calculation with an id. -/
def runOnEntry (settings : Settings) (o : Options) (id : Int) (path : Path) :
    m (Option Failure) := do
  match ← (Store.file host path).entries with
  | .error e => return some (.store e)
  | .ok entries =>
    match entries.find? fun e => e.id = some id with
    | none => return some (.noEntry id)
    | some e => Session.run host places settings o (.keys [.load e.result])

/-- Does something with the history file, wherever it is. -/
def withHistory (settings : Settings) (f : Path → m (Option Failure)) : m (Option Failure) :=
  match places.historyFile settings with
  | some path => f path
  | none => pure (some .noHistoryPlace)

/-- Runs a command; answers what went wrong. -/
def runCommand (settings : Settings) (o : Options) : Command → m (Option Failure)
  | .keys script =>
    match Script.read script with
    | .error e => pure (some (.script e))
    | .ok keys => Session.run host places settings o (.keys keys)
  | .load number => Session.run host places settings o (.keys [.load number])
  | .repl => Session.run host places settings o .lines
  | .recall id => withHistory places settings (runOnEntry host places settings o id)
  | .history => withHistory places settings (listHistory host)
  | .clearHistory => withHistory places settings (clearHistory host)

/-- Loads the configuration and runs a command; answers what went wrong. -/
def runRequest (o : Options) (command : Command) : m (Option Failure) := do
  match ← Settings.load host places o.config with
  | .error e => return some (.config e)
  | .ok settings => runCommand host places settings o command

/-- Runs the program; answers its exit code. -/
def run (args : List Text) : m Nat := do
  match Arguments.read args with
  | none =>
    host.complain ("error: the arguments are not in order\n\n".toList ++ usage)
    return 2
  | some .help =>
    host.print usage
    return 0
  | some .version =>
    host.print (programName ++ ' ' :: programVersion ++ ['\n'])
    return 0
  | some (.run o command) =>
    match ← runRequest host places o command with
    | none => return 0
    | some failure =>
      host.complain ("Error: ".toList ++ failure.message.toList)
      return 1

end

end Program

end PocketCalculator
