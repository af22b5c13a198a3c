import Provenance.Disk.Name
import Provenance.Resolution

/-!
Invocations of the program: what a command line asks for, once it is read.
-/

namespace Provenance

/-- How printed actions are written. -/
inductive OutputFormat where
  | text
  | json
  deriving DecidableEq

/-- What is to be printed, and where. -/
structure PrintOptions where
  /-- Labels of targets, or files. -/
  names : List String
  /-- Whether the names are files, to print the action that compiles each. -/
  compileOneDependency : Bool := false
  keepGoing : Bool := false
  mnemonics : MnemonicFilter := []
  format : OutputFormat := .text
  output : Option String := none
  deriving DecidableEq

inductive Command where
  | printAction (options : PrintOptions)
  /-- Checks the snapshot and does no more. -/
  | validate
  deriving DecidableEq

structure Invocation where
  snapshot : String
  /-- The directory that names are relative to. -/
  directory : Option String := none
  verbose : Bool := false
  command : Command
  deriving DecidableEq

/-- The request behind printed actions. -/
def PrintOptions.request (o : PrintOptions) : Request where
  targets := o.names
  files := if o.compileOneDependency then o.names else []
  mode := if o.compileOneDependency then .files else .target
  mnemonics := o.mnemonics
  keepGoing := o.keepGoing

namespace Invocation

/-- The snapshot that is read when none is named. -/
def defaultSnapshot : String := "build-snapshot.yml"

/-- A name as seen from the directory of the invocation. -/
def locate (i : Invocation) (name : String) : String :=
  match i.directory with
  | some d => Disk.join d name
  | none => name

/-- The name of the snapshot that is read. -/
def snapshotName (i : Invocation) : String := i.locate i.snapshot

/-- The name of the file that is written, if the output does not go to the screen. -/
def outputName? (i : Invocation) (o : PrintOptions) : Option String :=
  (o.output.filter (· ≠ "-")).map i.locate

end Invocation

end Provenance
