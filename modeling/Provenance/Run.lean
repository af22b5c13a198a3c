import Provenance.Disk.Fault
import Provenance.Invocation
import Provenance.Report.Json
import Provenance.Report.Listing
import Provenance.Snapshot.Loading
import Provenance.Workspace

/-!
A run of the program: read the snapshot, resolve the request, write what was found. The outside world
is given as a host, so that the same run works on a real machine and on a modelled one. All that may
fail comes before anything is printed. A file is written by way of a temporary one beside it, so that
it is there whole or not at all.
-/

namespace Provenance

/-- What a run needs of the outside world, where temporary files are known by values of a type. -/
structure Host (m : Type → Type) (Temporary : Type) where
  /-- Reads the document of a text. -/
  parse : Yaml.Parser
  /-- Reads the text of a file. -/
  read : (name : String) → m (Except Disk.Fault String)
  /-- Makes an empty temporary file in a directory, or gives the name that was tried and its fault. -/
  create : (directory : String) → m (Except (String × Disk.Fault) Temporary)
  /-- Writes a text to a temporary file. -/
  fill : Temporary → (text : String) → m (Except Disk.Fault Unit)
  /-- Lets a temporary file take the place of a file. -/
  persist : Temporary → (name : String) → m (Except Disk.Fault Unit)
  /-- Removes a temporary file, as far as possible. -/
  discard : Temporary → m Unit
  /-- Prints to the screen. -/
  print : (text : String) → m Unit

/-- Why a run failed. -/
inductive RunError where
  | loading (name : String) (cause : SnapshotError)
  | lowering (name : String) (cause : GraphError)
  | resolving (cause : ResolutionError)
  | writing (fault : Disk.WriteFault)
  deriving DecidableEq

namespace RunError

def message : RunError → String
  | loading name _ => s!"loading build snapshot at {name}"
  | lowering name _ => s!"lowering build snapshot at {name}"
  | resolving e => e.message
  | writing f => f.message

/-- The messages of what lies behind an error, the nearest first. -/
def causes : RunError → List String
  | loading _ e => e.message :: e.causes
  | lowering _ e => e.message :: e.causes
  | resolving _ => []
  | writing f => f.causes

def help : RunError → Option String
  | loading _ e => e.nearestHelp
  | lowering _ e => e.help
  | resolving e => some e.help
  | writing _ => none

/-- The exit code of a process that ends with the error. -/
def exitCode : RunError → Nat
  | resolving e => e.exitCode
  | _ => 1

end RunError

/-- How a run that did not fail ended. -/
inductive Completion where
  | full
  /-- Actions were printed, but the build behind them did not succeed. -/
  | partialBuild
  deriving DecidableEq

/-- The exit code of a process that ends so. -/
def Completion.exitCode : Completion → Nat
  | full => 0
  | partialBuild => 1

/-- Replaces a file, or makes a new one, by way of a temporary file beside it. -/
def Host.replace {m : Type → Type} {Temporary : Type} [Monad m] (host : Host m Temporary)
    (name text : String) : m (Except Disk.WriteFault Unit) := do
  let directory := Disk.parent name
  match ← host.create directory with
  | .error (temporary, f) => return .error (.staging directory temporary f)
  | .ok t =>
    match ← host.fill t text with
    | .error f =>
      host.discard t
      return .error (.filling f)
    | .ok () =>
      match ← host.persist t name with
      | .error f =>
        host.discard t
        return .error (.replacing name f)
      | .ok () => return .ok ()

/-- What a report looks like in a format. -/
def OutputFormat.render (f : OutputFormat) (r : Report) : String :=
  match f with
  | .text => Listing.render r.entries
  | .json => Json.render r.entries ++ "\n"

namespace Invocation

/-- The workspace of a snapshot that was read, or not. -/
def workspace (i : Invocation) (parse : Yaml.Parser) (contents : Except Disk.Fault String) :
    Except RunError Workspace := do
  let text ← contents.mapError fun f => .loading i.snapshotName (.unread i.snapshotName f)
  let s ← (Snapshot.load i.snapshotName text parse).mapError (.loading i.snapshotName)
  (Workspace.ofSnapshot s).mapError (.lowering i.snapshotName)

variable {m : Type → Type} {Temporary : Type} [Monad m]

/-- Writes a text to where the output goes. -/
def write (host : Host m Temporary) (i : Invocation) (o : PrintOptions) (text : String) :
    m (Except Disk.WriteFault Unit) :=
  match i.outputName? o with
  | some name => host.replace name text
  | none => do
    host.print text
    return .ok ()

/-- Prints the actions that are asked for. -/
def printActions (host : Host m Temporary) (i : Invocation) (w : Workspace) (o : PrintOptions) :
    m (Except RunError Completion × List Warning) := do
  let (result, warnings) := o.request.resolve w.tool
  match result with
  | .error e => return (.error (.resolving e), warnings)
  | .ok report =>
    match ← i.write host o (o.format.render report) with
    | .error f => return (.error (.writing f), warnings)
    | .ok () =>
      if report.buildSucceeded then return (.ok .full, warnings)
      else return (.ok .partialBuild, warnings ++ [.partialBuild])

/-- Runs an invocation. -/
def run (host : Host m Temporary) (i : Invocation) : m (Except RunError Completion × List Warning) := do
  match i.workspace host.parse (← host.read i.snapshotName) with
  | .error e => return (.error e, [])
  | .ok w =>
    match i.command with
    | .validate => return (.ok .full, [])
    | .printAction o => i.printActions host w o

end Invocation

end Provenance
