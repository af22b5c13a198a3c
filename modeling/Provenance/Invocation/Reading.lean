import Provenance.Invocation
import Provenance.Invocation.Words

/-!
Reading of command lines. Settings that hold for all commands come before the command, and settings
of a command after it. What the command line leaves open may be given by the environment.
-/

namespace Provenance

/-- What the environment gives. -/
structure Environment where
  snapshot : Option String := none
  mnemonics : Option String := none

namespace Invocation

open Words

/-- The check of a file name. -/
def isFileName (name : String) : Bool := name ≠ ""

/-- The names of the output formats. -/
def formats : List (String × OutputFormat) := [("text", .text), ("json", .json)]

def helpSetting : Setting := { short := some 'h', long := "help", takes := .ends .helpRequested }

def versionSetting : Setting :=
  { short := some 'V', long := "version", takes := .ends .versionRequested }

/-- The command that explains the others. -/
def helpCommand : String := "help"

/-- What comes before a command. -/
def mainGrammar : Grammar where
  settings := [
    { short := some 's', long := "snapshot", takes := .one isFileName },
    { short := some 'C', long := "directory", takes := .one isFileName },
    { short := some 'v', long := "verbose", takes := .nothing },
    helpSetting, versionSetting]
  commands := ["print-action", "validate", helpCommand]

/-- What follows the command that prints actions. -/
def printGrammar : Grammar where
  settings := [
    { long := "compile-one-dependency", takes := .nothing },
    { short := some 'k', long := "keep-going", takes := .nothing },
    { long := "print-action-mnemonics", takes := .many },
    { long := "output-format", takes := .one fun v => (formats.lookup v).isSome },
    { short := some 'o', long := "output", takes := .one isFileName },
    helpSetting]
  takesWords := true

/-- What follows the command that checks a snapshot. -/
def validateGrammar : Grammar where
  settings := [helpSetting]

/-- The mnemonics of a list with commas between them. -/
def splitMnemonics (list : String) : List String :=
  (Text.fields ',' list.toList).map String.ofList

/-- Reads what follows the command that prints actions. -/
def readPrint (env : Environment) (words : List String) : Except UsageError Command := do
  let (s, _) ← Words.read printGrammar {} words
  let s ← s.settle
  if s.words = [] then .error .argumentMissing
  else
    let lists := s.values "print-action-mnemonics"
    return .printAction {
      names := s.words
      compileOneDependency := s.has "compile-one-dependency"
      keepGoing := s.has "keep-going"
      mnemonics := (if lists = [] then env.mnemonics.toList else lists).flatMap splitMnemonics
      format := ((s.value? "output-format").bind fun v => formats.lookup v).getD .text
      output := s.value? "output" }

/-- Reads what follows the command that checks a snapshot. -/
def readValidate (words : List String) : Except UsageError Command := do
  let (s, _) ← Words.read validateGrammar {} words
  let _ ← s.settle
  return .validate

/-- What becomes of a request for help on commands. -/
def readHelp : List String → UsageError
  | [] => .helpRequested
  | [name] => if mainGrammar.commands.contains name then .helpRequested else .unknownCommand
  | _ => .unknownCommand

/-- Reads a command. -/
def readCommand (env : Environment) (name : String) (words : List String) :
    Except UsageError Command :=
  if name = helpCommand then .error (readHelp words)
  else if name = "validate" then readValidate words
  else readPrint env words

/-- The snapshot that is asked for, if any is. -/
def readSnapshot (env : Environment) (s : Reading) : Except UsageError (Option String) :=
  match s.value? "snapshot", env.snapshot with
  | some name, _ => .ok (some name)
  | none, some name => if isFileName name then .ok (some name) else .error .invalidValue
  | none, none => .ok none

/-- Reads a command line. The faults of a command show before those of the settings in front of
it that are not settled. -/
def read (env : Environment) (words : List String) : Except UsageError Invocation := do
  let (s, named) ← Words.read mainGrammar {} words
  let command ← named.mapM fun (name, rest) => readCommand env name rest
  let s ← s.settle
  let snapshot ← readSnapshot env s
  match command with
  | some command =>
    return {
      snapshot := snapshot.getD defaultSnapshot
      directory := s.value? "directory"
      verbose := s.has "verbose"
      command }
  | none => .error (if s.given = [] && snapshot.isNone then .nothingGiven else .commandMissing)

end Invocation

end Provenance
