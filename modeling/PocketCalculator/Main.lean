import PocketCalculator.Command.Program
import PocketCalculator.Text.Base64
import PocketCalculator.Text.Lines
import Std.Time.DateTime.Timestamp

/-!
# The command line

The program on the machine that it runs on. What it does is `Program.run`; here its host is put
together from the files, the streams, the clock and the environment of the process. The clipboard
is that of the terminal, which takes a text by an escape sequence.
-/

namespace PocketCalculator

namespace Console

/-- Why an operation on a file failed. -/
def fileError : IO.Error → FileError
  | .noFileOrDirectory .. => .missing
  | _ => .refused

/-- The result of an operation on a file. -/
def onFile {α : Type} (act : IO α) : IO (Except FileError α) := do
  match ← act.toBaseIO with
  | .ok a => return .ok a
  | .error e => return .error (fileError e)

/-- Whether an operation works. -/
def works (act : IO Unit) : IO Bool := do
  match ← act.toBaseIO with
  | .ok () => return true
  | .error _ => return false

/-- The bytes of a stream up to the end of a line, behind those that are read already. -/
partial def readLine (input : IO.FS.Stream) (line : ByteArray) : IO ByteArray := do
  let next ← input.read 1
  let line := line ++ next
  if next.isEmpty ∨ next.data.back? = some 10 then return line else readLine input line

/-- Feeds the lines of a stream to a function until it answers false or there are no more. -/
partial def foldStream (input : IO.FS.Stream) {σ : Type}
    (f : σ → Option Text → IO (σ × Bool)) (acc : σ) : IO σ := do
  let line ← readLine input ByteArray.empty
  if line.isEmpty then return acc
  let (acc, more) ← f acc ((textOfBytes? line).map withoutLineEnd)
  if more then foldStream input f acc else return acc

/-- The escape sequence that puts a text on the clipboard of a terminal. -/
def clipboardSequence (t : Text) : Text :=
  "\x1b]52;c;".toList ++ base64 (bytesOfText t).toList ++ ['\x07']

/-- Puts a text on the clipboard of the terminal. -/
def copy (t : Text) : IO (Except ClipboardError Unit) := do
  match ← (IO.FS.Handle.mk "/dev/tty" .write).toBaseIO with
  | .error _ => return .error .closed
  | .ok terminal =>
    if ← works (terminal.putStr (String.ofList (clipboardSequence t)) *> terminal.flush) then
      return .ok ()
    else return .error .refused

/-- Writes a text to a stream at once. -/
def put (stream : IO.FS.Stream) (t : Text) : IO Unit := do
  stream.putStr (String.ofList t)
  stream.flush

/-- The console as a host. -/
def host : Host IO where
  readFile p := onFile (IO.FS.readBinFile (String.ofList p))
  writeFile p content := works (IO.FS.writeBinFile (String.ofList p) content)
  makeFolders p := do
    if p.isEmpty then return true else works (IO.FS.createDirAll (String.ofList p))
  removeFile p := onFile (IO.FS.removeFile (String.ofList p))
  print t := do put (← IO.getStdout) t
  complain t := do put (← IO.getStderr) (t ++ ['\n'])
  warn t := do put (← IO.getStderr) ("WARN ".toList ++ t ++ ['\n'])
  foldLines f acc := do foldStream (← IO.getStdin) f acc
  copy := copy
  now := do return (← Std.Time.Timestamp.now).toMillisecondsSinceUnixEpoch.val
  wait ms := IO.sleep ms.toUInt32

/-- The path in a variable of the environment. -/
def pathIn (name : String) : IO (Option Path) := do
  return ((← IO.getEnv name).map String.toList).filter (!·.isEmpty)

/-- The folders of the user. -/
def places : IO Places := do
  return .ofEnvironment (← pathIn "HOME") (← pathIn "XDG_CONFIG_HOME") (← pathIn "XDG_DATA_HOME")
    (← pathIn "XDG_STATE_HOME")

end Console

end PocketCalculator

/-- Runs the program on the arguments of the process. -/
def main (args : List String) : IO UInt32 := do
  let code ← PocketCalculator.Program.run PocketCalculator.Console.host
    (← PocketCalculator.Console.places) (args.map String.toList)
  return code.toUInt32
