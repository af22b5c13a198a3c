import Provenance.Decimal.Shortest
import Provenance.Document
import Provenance.Snapshot

/-!
The schema of snapshots: which documents are snapshots, and which document a snapshot is written as.
The members of a record are checked in the order of the document, and the first problem is reported;
only then are missing members looked for. A record may also be written as the list of its fields.
Reading the document that a snapshot is written as gives the snapshot back.
-/

namespace Provenance

/-- Why a document is no snapshot. -/
inductive SchemaError where
  | invalidType (found expected : String)
  | invalidLength (length : Nat) (expected : String)
  | notOneMember
  | noVariant
  | unknownField (name : String) (known : List String)
  | unknownVariant (name : String) (known : List String)
  | missingField (name : String)
  | version (fault : Version.Fault)
  deriving DecidableEq

namespace SchemaError

/-- A name between backquotes. -/
def quoted (name : String) : String := s!"`{name}`"

/-- The choice between some names. -/
def choice : List String → String
  | [] => "nothing"
  | [a] => quoted a
  | [a, b] => s!"{quoted a} or {quoted b}"
  | names => "one of " ++ ", ".intercalate (names.map quoted)

def message : SchemaError → String
  | invalidType found expected => s!"invalid type: {found}, expected {expected}"
  | invalidLength n expected => s!"invalid length {n}, expected {expected}"
  | notOneMember => "invalid value: map, expected map with a single key"
  | noVariant => "data did not match any variant of untagged enum StringOrList"
  | unknownField name known => s!"unknown field {quoted name}, expected {choice known}"
  | unknownVariant name known => s!"unknown variant {quoted name}, expected {choice known}"
  | missingField name => s!"missing field {quoted name}"
  | version fault => fault.message

end SchemaError

namespace Document

/-- What a document is, as errors name it. -/
def described : Document → String
  | null => "null"
  | bool b => s!"boolean {SchemaError.quoted (toString b)}"
  | int n => s!"integer {SchemaError.quoted (toString n)}"
  | float x => s!"floating point {SchemaError.quoted (Decimal.text x)}"
  | text s => s!"string {Text.shown s}"
  | list _ => "sequence"
  | record _ => "map"

/-- The error of a document where something else was due. -/
def mistyped {α : Type} (d : Document) (expected : String) : Except SchemaError α :=
  .error (.invalidType d.described expected)

def readText : Document → Except SchemaError String
  | text s => .ok s
  | d => d.mistyped "a string"

def readBool : Document → Except SchemaError Bool
  | bool b => .ok b
  | d => d.mistyped "a boolean"

def readNull : Document → Except SchemaError Unit
  | null => .ok ()
  | d => d.mistyped "unit"

/-- Reads a list, item by item. -/
def readList {α : Type} (read : Document → Except SchemaError α) :
    Document → Except SchemaError (List α)
  | list items => items.mapM read
  | d => d.mistyped "a sequence"

/-- Reads a value that may be null. -/
def readOption {α : Type} (read : Document → Except SchemaError α) :
    Document → Except SchemaError (Option α)
  | null => .ok none
  | d => some <$> read d

/-- Reads a record of any members, all alike. -/
def readMap {α : Type} (read : Document → Except SchemaError α) :
    Document → Except SchemaError (List (String × α))
  | record members => members.mapM fun (k, d) => do return (k, ← read d)
  | d => d.mistyped "a map"

def readTextOrList : Document → Except SchemaError TextOrList
  | null => .ok .empty
  | text s => .ok (.one s)
  | list items =>
    match items.mapM readText with
    | .ok ss => .ok (.many ss)
    | .error _ => .error .noVariant
  | _ => .error .noVariant

/-- Reads one of some named values: the name alone, or as the only member of a record, with a null
beside it. -/
def readVariant {α : Type} (variants : List (String × α)) (d : Document) : Except SchemaError α :=
  let find (name : String) : Except SchemaError α :=
    match variants.lookup name with
    | some v => .ok v
    | none => .error (.unknownVariant name (variants.map Prod.fst))
  match d with
  | text s => find s
  | record [(name, d)] => do
    let v ← find name
    d.readNull
    return v
  | record _ => .error .notOneMember
  | d => d.mistyped "string or map"

def readVersion : Document → Except SchemaError Version
  | text s => (Version.parse s).mapError .version
  | d => d.mistyped "semver version"

end Document

namespace Schema

/-- A field of a record: its name, whether it must be there, and what it takes. -/
structure Field where
  name : String
  required : Bool := false
  check : Document → Except SchemaError Unit

/-- A kind of record, with its fields in order of declaration. -/
structure Shape where
  name : String
  fields : List Field

/-- A check of what a reader accepts. -/
def accepts {α : Type} (read : Document → Except SchemaError α) (d : Document) :
    Except SchemaError Unit := (read d).map fun _ => ()

namespace Shape

/-- Checks a member against the field of its name. -/
def checkMember (s : Shape) (member : String × Document) : Except SchemaError Unit :=
  match s.fields.find? (·.name = member.1) with
  | some f => f.check member.2
  | none => .error (.unknownField member.1 (s.fields.map Field.name))

/-- The members of a document of the shape, named also where the document only lists them. -/
def members (s : Shape) : Document → Except SchemaError (List (String × Document))
  | .record members => do
    members.forM s.checkMember
    match s.fields.find? fun f => f.required && (members.lookup f.name).isNone with
    | some f => .error (.missingField f.name)
    | none => return members
  | .list items => do
    let members := (s.fields.map Field.name).zip items
    members.forM s.checkMember
    match s.fields.zipIdx.find? fun f => f.1.required && items.length ≤ f.2 with
    | some f =>
      .error (.invalidLength f.2 s!"struct {s.name} with {s.fields.length} elements")
    | none =>
      if s.fields.length < items.length then
        .error (.invalidLength items.length "fewer elements in array")
      else return members
  | d => d.mistyped s!"struct {s.name}"

end Shape

/-- Reads a member that must be there. -/
def required {α : Type} (members : List (String × Document)) (name : String)
    (read : Document → Except SchemaError α) : Except SchemaError α :=
  match members.lookup name with
  | some d => read d
  | none => .error (.missingField name)

/-- Reads a member that has a default. -/
def optional {α : Type} (members : List (String × Document)) (name : String) (default : α)
    (read : Document → Except SchemaError α) : Except SchemaError α :=
  match members.lookup name with
  | some d => read d
  | none => .ok default

open Document

def readBuild (d : Document) : Except SchemaError BuildRecord := do
  let ms ← Shape.members ⟨"BuildStatus", [
    { name := "success", check := accepts readBool },
    { name := "failed", check := accepts (readList readText) }]⟩ d
  return {
    success := ← optional ms "success" true readBool
    failed := ← optional ms "failed" [] (readList readText) }

/-- The written names of the indirection classes. -/
def indirections : List (String × IndirectionRecord) :=
  [("scheduling-propagating", .scheduling), ("aggregating", .aggregating)]

/-- The written names of the target kinds. -/
def kinds : List (String × KindRecord) := [("rule", .rule), ("file", .file)]

def readAction (d : Document) : Except SchemaError ActionRecord := do
  let ms ← Shape.members ⟨"ActionDecl", [
    { name := "mnemonic", required := true, check := accepts readText },
    { name := "owner", check := accepts (readOption readText) },
    { name := "inputs", check := accepts readTextOrList },
    { name := "outputs", required := true, check := accepts readTextOrList },
    { name := "arguments", check := accepts (readList readText) },
    { name := "indirection", check := accepts (readOption (readVariant indirections)) }]⟩ d
  return {
    mnemonic := ← required ms "mnemonic" readText
    owner := ← optional ms "owner" none (readOption readText)
    inputs := ← optional ms "inputs" .empty readTextOrList
    outputs := ← required ms "outputs" readTextOrList
    arguments := ← optional ms "arguments" [] (readList readText)
    indirection := ← optional ms "indirection" none (readOption (readVariant indirections)) }

def readTarget (d : Document) : Except SchemaError TargetRecord := do
  let ms ← Shape.members ⟨"TargetDecl", [
    { name := "label", required := true, check := accepts readText },
    { name := "kind", check := accepts (readVariant kinds) },
    { name := "files_to_build", check := accepts readTextOrList },
    { name := "output_groups", check := accepts (readMap readTextOrList) },
    { name := "attributes", check := accepts (readMap readTextOrList) }]⟩ d
  return {
    label := ← required ms "label" readText
    kind := ← optional ms "kind" .rule (readVariant kinds)
    filesToBuild := ← optional ms "files_to_build" .empty readTextOrList
    outputGroups := ← optional ms "output_groups" [] (readMap readTextOrList)
    attributes := ← optional ms "attributes" [] (readMap readTextOrList) }

/-- Reads a snapshot. -/
def readSnapshot (d : Document) : Except SchemaError Snapshot := do
  let ms ← Shape.members ⟨"BuildSnapshot", [
    { name := "snapshot_version", required := true, check := accepts readVersion },
    { name := "build", check := accepts readBuild },
    { name := "indirections", check := accepts (readList readText) },
    { name := "actions", check := accepts (readList readAction) },
    { name := "targets", check := accepts (readList readTarget) }]⟩ d
  return {
    version := ← required ms "snapshot_version" readVersion
    build := ← optional ms "build" {} readBuild
    indirections := ← optional ms "indirections" [] (readList readText)
    actions := ← optional ms "actions" [] (readList readAction)
    targets := ← optional ms "targets" [] (readList readTarget) }

end Schema

namespace Document

def ofTexts (ss : List String) : Document := .list (ss.map .text)

def ofOption {α : Type} (write : α → Document) : Option α → Document
  | none => .null
  | some a => write a

def ofTextOrList : TextOrList → Document
  | .empty => .null
  | .one s => .text s
  | .many ss => ofTexts ss

def ofIndirection : IndirectionRecord → Document
  | .scheduling => .text "scheduling-propagating"
  | .aggregating => .text "aggregating"

def ofKind : KindRecord → Document
  | .rule => .text "rule"
  | .file => .text "file"

def ofGroups (gs : List (String × TextOrList)) : Document :=
  .record (gs.map fun (k, v) => (k, ofTextOrList v))

def ofBuild (b : BuildRecord) : Document :=
  .record [("success", .bool b.success), ("failed", ofTexts b.failed)]

def ofAction (a : ActionRecord) : Document :=
  .record [
    ("mnemonic", .text a.mnemonic),
    ("owner", ofOption .text a.owner),
    ("inputs", ofTextOrList a.inputs),
    ("outputs", ofTextOrList a.outputs),
    ("arguments", ofTexts a.arguments),
    ("indirection", ofOption ofIndirection a.indirection)]

def ofTarget (t : TargetRecord) : Document :=
  .record [
    ("label", .text t.label),
    ("kind", ofKind t.kind),
    ("files_to_build", ofTextOrList t.filesToBuild),
    ("output_groups", ofGroups t.outputGroups),
    ("attributes", ofGroups t.attributes)]

/-- The document that a snapshot is written as, with every member there. -/
def ofSnapshot (s : Snapshot) : Document :=
  .record [
    ("snapshot_version", .text s.version.toString),
    ("build", ofBuild s.build),
    ("indirections", ofTexts s.indirections),
    ("actions", .list (s.actions.map ofAction)),
    ("targets", .list (s.targets.map ofTarget))]

end Document

end Provenance
