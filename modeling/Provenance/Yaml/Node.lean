import Provenance.Document
import Provenance.Table
import Provenance.Yaml.Base64
import Provenance.Yaml.Plain
import Provenance.Yaml.Token

/-!
The nodes of a YAML text and the documents they stand for. A node stands for a document, or for the
first fault met when it is read from its start to its end. It may also be the value of a merge key,
and then brings members into a mapping: those that the mapping does not have itself are added to it,
and only those need stand for documents.
-/

namespace Provenance.Yaml

/-- A scalar with its tag. -/
structure Leaf where
  kind : TagKind
  plain : Bool
  text : String
  location : Source.Location

namespace Leaf

/-- The scalar as a text. -/
def asText (l : Leaf) : Except Fault String :=
  let unfit : Except Fault String := .error ⟨.badTaggedValue, some l.location⟩
  if l.kind = .binary then
    match Base64.text? l.text with
    | some s => .ok s
    | none => unfit
  else if l.kind.isTextual then .ok l.text
  else unfit

/-- The document that the scalar stands for. -/
def document (l : Leaf) : Except Fault Document :=
  if l.kind = .null then .ok .null
  else if l.plain && l.kind.isTextual then .ok (Plain.resolve l.text)
  else l.asText.map .text

/-- Whether the scalar says that there is nothing. -/
def isNullish (l : Leaf) : Bool :=
  l.plain && ["", "~", "null"].contains (String.ofList (l.text.toList.map Char.toLower))

/-- Whether the scalar is the key of a merge. -/
def isMergeKey (l : Leaf) : Bool := l.plain && l.kind = .untagged && l.text = "<<"

/-- Whether two scalars are one key. -/
def isSameKey (a b : Leaf) : Bool := a.text = b.text && a.kind = b.kind

end Leaf

/-- A member of a mapping that is yet to be merged into another one. -/
structure Member where
  key : Except Fault Leaf
  value : Except Fault Document

/-- A node, as far as it was read. -/
structure Node where
  /-- Where the node starts, unless the text broke off before. -/
  start : Option Source.Location
  /-- The node as a scalar, if it is one. -/
  leaf? : Option Leaf := none
  /-- What broke the text off within the node. -/
  cut : Option Fault := none
  /-- The number of scalars and of starts and ends of collections in the node. -/
  size : Nat := 1
  /-- The document that the node stands for. -/
  document : Except Fault Document
  /-- What the node brings into a mapping as the value of a merge key. -/
  members : Except Fault (List Member)

namespace Node

/-- What there is in place of a node that the text breaks off before. -/
def missing (f : Fault) : Node where
  start := none
  cut := some f
  document := .error f
  members := .error f

def ofLeaf (l : Leaf) : Node where
  start := some l.location
  leaf? := some l
  document := l.document
  members := if l.isNullish then .ok [] else .error ⟨.badMerge, some l.location⟩

/-- The node as a key. -/
def key (n : Node) : Except Fault Leaf :=
  match n.leaf? with
  | some l => .ok l
  | none => .error ⟨.keyNotScalar, n.start⟩

/-- Whether the node is the key of a merge. -/
def isMergeKey (n : Node) : Bool := n.leaf?.any Leaf.isMergeKey

/-- A fault that broke the text off, unless there is none. -/
def checkWhole (cut : Option Fault) : Except Fault Unit :=
  match cut with
  | some f => .error f
  | none => .ok ()

/-- A sequence of some items. As a merge value, its last item comes first. -/
def sequence (start : Source.Location) (items : List Node) (cut : Option Fault) : Node where
  start := some start
  cut := (items.findSome? Node.cut).or cut
  size := items.foldl (fun n i => n + i.size) 2
  document := do
    let ds ← items.mapM document
    checkWhole cut
    return .list ds
  members := do
    let batches ← items.mapM members
    return batches.reverse.flatten

/-- The members of a mapping, as far as they are put together. -/
structure Assembly where
  /-- The keys so far. -/
  keys : List Leaf := []
  table : List (String × Document) := []
  /-- What the merge keys so far bring in, the last first. -/
  merged : List (List Member) := []

namespace Assembly

/-- Sets a member whose key is new. Keys with different tags may be the same text, and then the last
one counts. -/
def set (a : Assembly) (key : Leaf) (value : Except Fault Document) : Except Fault Assembly := do
  let name ← key.asText
  return { a with keys := key :: a.keys, table := put name (← value) a.table }

/-- Adds a member of the mapping itself. -/
def add (a : Assembly) (key value : Node) : Except Fault Assembly := do
  checkWhole key.cut
  if key.isMergeKey then
    checkWhole value.cut
    return { a with merged := (← value.members) :: a.merged }
  else do
    let leaf ← key.key
    if a.keys.any leaf.isSameKey then .error ⟨.duplicateKey leaf.text, key.start⟩
    else a.set leaf value.document

/-- Adds a member that is merged into the mapping, unless the mapping has the key. -/
def merge (a : Assembly) (m : Member) : Except Fault Assembly := do
  let leaf ← m.key
  if a.keys.any leaf.isSameKey then return a else a.set leaf m.value

end Assembly

/-- A mapping of some keys to values. As a merge value, it brings in its own members before those
that are merged into it. -/
def mapping (start : Source.Location) (pairs : List (Node × Node)) (cut : Option Fault) : Node where
  start := some start
  cut := (pairs.findSome? fun (k, v) => k.cut.or v.cut).or cut
  size := pairs.foldl (fun n (k, v) => n + k.size + v.size) 2
  document := do
    let a ← pairs.foldlM (fun a (k, v) => a.add k v) ({} : Assembly)
    checkWhole cut
    let a ← a.merged.flatten.foldlM Assembly.merge a
    return .record a.table
  members := do
    let (merges, own) := pairs.partition fun (k, _) => k.isMergeKey
    let batches ← merges.mapM fun (_, v) => v.members
    return own.map (fun (k, v) => ⟨k.key, v.document⟩) ++ batches.reverse.flatten

end Node

end Provenance.Yaml
