import Provenance.Invocation.Reading
import Provenance.Run

/-!
The program: the command line and the environment of the process are read, and the run works on the
files of the machine.
-/

namespace Provenance.Main

/-- The fault behind an error of the system. -/
def faultOf : IO.Error → Disk.Fault
  | .noFileOrDirectory _ _ _ => .notFound
  | .inappropriateType _ 21 _ => .isDirectory
  | .inappropriateType _ 20 _ => .notDirectory
  | .noSuchThing _ _ _ => .notFound
  | .resourceBusy _ _ => .busy
  | .alreadyExists _ _ _ => .occupied
  | e => .other e.toString

/-- Runs an action, and gives the fault if it ends with an error. -/
def attempt {α : Type} (act : IO α) : IO (Except Disk.Fault α) := do
  try return .ok (← act)
  catch e => return .error (faultOf e)

/-- Reads a file. -/
def readText (name : String) : IO (Except Disk.Fault String) := do
  match ← attempt (IO.FS.readBinFile name) with
  | .error f => return .error f
  | .ok bytes =>
    match String.fromUTF8? bytes with
    | some text => return .ok text
    | none => return .error .notText

/-- The characters of random names. -/
def letters : List Char :=
  "ABCDEFGHIJKLMNOPQRSTUVWXYZabcdefghijklmnopqrstuvwxyz0123456789".toList

/-- A new name for a temporary file. -/
def temporaryName : IO String := do
  let cs ← (List.range 6).mapM fun _ => return letters.getD (← IO.rand 0 61) 'A'
  return ".tmp" ++ String.ofList cs

/-- A temporary file that is being written. -/
structure Temporary where
  name : String
  handle : IO.FS.Handle

/-- Makes a temporary file in a directory, which did not exist before. -/
def create (directory : String) : IO (Except (String × Disk.Fault) Temporary) := do
  let name := Disk.join directory (← temporaryName)
  match ← attempt (IO.FS.Handle.mk name .writeNew) with
  | .error f => return .error (Disk.join (← IO.currentDir).toString name, f)
  | .ok handle => return .ok { name, handle }

/-- The machine that the process runs on. -/
def host : Host IO Temporary where
  parse := Yaml.read
  read := readText
  create := create
  fill t text := attempt do
    t.handle.putStr text
    t.handle.flush
  persist t name := attempt (IO.FS.rename t.name name)
  discard t := do let _ ← attempt (IO.FS.removeFile t.name)
  print text := do
    let out ← IO.getStdout
    out.putStr text
    out.flush

/-- How the program is called. -/
def usage : String := "\n".intercalate [
  "Find the build actions behind files and targets of a finished build.",
  "",
  "usage: provenance [-s FILE] [-C DIR] [-v] print-action [--compile-one-dependency] [-k]",
  "         [--print-action-mnemonics M,..] [--output-format text|json] [-o FILE] NAME..",
  "       provenance [-s FILE] [-C DIR] [-v] validate",
  ""]

/-- What to tell about a command line that asks for no run. -/
def describe : UsageError → String
  | .helpRequested => usage
  | .versionRequested => "provenance 0.1.0\n"
  | .nothingGiven => usage
  | .commandMissing => "error: a command is missing\n"
  | .unknownCommand => "error: there is no such command\n"
  | .unknownArgument => "error: an argument is not understood\n"
  | .argumentMissing => "error: the names to print actions for are missing\n"
  | .givenTwice => "error: an option may be given only once\n"
  | .unexpectedValue => "error: an option has a value but takes none\n"
  | .invalidValue => "error: an option has no value, or one that it does not take\n"

/-- Prints to the error output. -/
def complain (text : String) : IO Unit := do (← IO.getStderr).putStr text

/-- The process from its command line to its exit code. -/
def process (words : List String) : IO Nat := do
  let env : Environment := {
    snapshot := ← IO.getEnv "WHENCE_SNAPSHOT"
    mnemonics := ← IO.getEnv "WHENCE_PRINT_ACTION_MNEMONICS" }
  match Invocation.read env words with
  | .error e =>
    if e.exitCode = 0 then IO.print (describe e) else complain (describe e)
    return e.exitCode
  | .ok i =>
    let (result, _) ← i.run host
    match result with
    | .ok c => return c.exitCode
    | .error e =>
      complain ("error: " ++ ": ".intercalate (e.message :: e.causes) ++ "\n")
      for help in e.help do complain ("help: " ++ help ++ "\n")
      return e.exitCode

end Provenance.Main

def main (words : List String) : IO UInt32 := do
  return (← Provenance.Main.process words).toUInt32
