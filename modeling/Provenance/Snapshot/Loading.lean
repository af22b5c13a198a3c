import Provenance.Disk.Fault
import Provenance.Snapshot.Schema
import Provenance.Yaml.Stream

/-!
Loading of snapshots from YAML. A text is first read as a document, whatever it holds, and only then
as a snapshot, so that faults of the text and faults against the schema are told apart; last, the
version must be one that is understood.
-/

namespace Provenance

/-- Why a text holds no snapshot. -/
inductive ParseFault where
  | yaml (src : String) (complaint : Yaml.Complaint)
  | schema (error : SchemaError)
  deriving DecidableEq

/-- Why there is no snapshot. -/
inductive SnapshotError where
  | unread (path : String) (fault : Disk.Fault)
  /-- A text of a given name does not hold a snapshot. -/
  | unparsed (name : String) (fault : ParseFault)
  | unsupportedVersion (version : Version)
  deriving DecidableEq

namespace ParseFault

/-- The messages of a fault, the nearest first. The wording of a YAML fault itself is not among
them. -/
def causes (name : String) : ParseFault → List String
  | yaml _ _ => [Yaml.Complaint.headline name]
  | schema e => [s!"{name} does not match the snapshot schema: {e.message}", e.message]

def code : ParseFault → String
  | yaml _ _ => Yaml.Complaint.code
  | schema _ => "whence::snapshot::schema"

def help : ParseFault → Option String
  | yaml src c => c.hint? src
  | schema _ => none

end ParseFault

namespace SnapshotError

def message : SnapshotError → String
  | unread path _ => s!"failed to read build snapshot at {path}"
  | unparsed name _ => s!"failed to parse {name}"
  | unsupportedVersion v => s!"build snapshot version {v.toString} is not supported"

/-- The messages of what lies behind an error, the nearest first. -/
def causes : SnapshotError → List String
  | unread _ f => [f.message]
  | unparsed name f => f.causes name
  | unsupportedVersion _ => []

/-- The code that documentation knows an error by. -/
def code : SnapshotError → String
  | unread _ _ => "whence::snapshot::read"
  | unparsed _ _ => "whence::snapshot::parse"
  | unsupportedVersion _ => "whence::snapshot::version"

/-- The help of the error itself. -/
def help : SnapshotError → Option String
  | unread _ _ => some "pass --snapshot or set WHENCE_SNAPSHOT to point at a snapshot file"
  | unparsed _ _ => none
  | unsupportedVersion _ => some "regenerate the snapshot with format version 1.x"

/-- The fault that an error reports, if it is one of a text. -/
def fault? : SnapshotError → Option ParseFault
  | unparsed _ f => some f
  | _ => none

/-- The help of the innermost fault that has any. -/
def nearestHelp (e : SnapshotError) : Option String := (e.fault?.bind ParseFault.help).or e.help

end SnapshotError

namespace Snapshot

/-- The major version that is understood. -/
def supportedMajor : Nat := 1

/-- The name of a text that has no other. -/
def unnamed : String := "build snapshot"

/-- Loads the snapshot from a text of a given name. -/
def load (name text : String) (parse : Yaml.Parser := Yaml.read) :
    Except SnapshotError Snapshot := do
  let doc ← (parse text).mapError fun c => .unparsed name (.yaml text c)
  let s ← (Schema.readSnapshot doc).mapError fun e => .unparsed name (.schema e)
  if s.version.major = supportedMajor then return s else throw (.unsupportedVersion s.version)

end Snapshot

end Provenance
