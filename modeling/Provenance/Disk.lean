import Provenance.Disk.Fault
import Provenance.Disk.Name

/-!
Disks: trees of directories and files, without links, in which everything may be read and written. A
name is followed from the root or from the working directory, component by component; each component
but the last must be a directory. A file is put at a place and removed from it, and a file moves to
the place that a name leads to in one step or not at all.
-/

namespace Provenance

/-- A place in the tree: the names on the way to it from the root. -/
abbrev Disk.Place := List String

/-- What stands at a place. -/
inductive Disk.Node where
  | directory
  | file (bytes : ByteArray)

/-- Files are compared byte by byte. -/
instance : DecidableEq Disk.Node
  | .directory, .directory => .isTrue rfl
  | .directory, .file _ => .isFalse nofun
  | .file _, .directory => .isFalse nofun
  | .file a, .file b =>
    decidable_of_iff (a.data = b.data) (by rw [Disk.Node.file.injEq, ByteArray.ext_iff])

structure Disk where
  /-- What stands at the places in use. A directory need not be listed if something in it is. -/
  nodes : List (Disk.Place × Disk.Node)
  /-- The place of the working directory. -/
  home : Disk.Place
  /-- The written form of the working directory. -/
  homeName : String

namespace Disk

/-- What stands at a place, if anything does. -/
def node? (d : Disk) (p : Place) : Option Node :=
  (d.nodes.lookup p).or
    (if p.isPrefixOf d.home || d.nodes.any (p.isPrefixOf ·.1) then some .directory else none)

/-- Names on a disk are no longer than this many bytes. -/
def maxName : Nat := 255

/-- Names with all their components are shorter than this many bytes. -/
def maxFullName : Nat := 4096

/-- Refuses a place where no directory stands. -/
def directory (d : Disk) (p : Place) : Except Fault Place :=
  match d.node? p with
  | some .directory => .ok p
  | some (.file _) => .error .notDirectory
  | none => .error .notFound

/-- Follows one component of a name. -/
def step (d : Disk) (p : Place) (component : String) : Except Fault Place := do
  let p ← d.directory p
  if component = "" || component = "." then .ok p
  else if component = ".." then .ok p.dropLast
  else if maxName < component.utf8ByteSize then .error .nameTooLong
  else
    match d.node? (p ++ [component]) with
    | some _ => .ok (p ++ [component])
    | none => .error .notFound

/-- Refuses a text that can not be a name. -/
def checkName (name : String) : Except Fault Unit :=
  if name.toList.contains '\x00' then .error .nullInName
  else if maxFullName ≤ name.utf8ByteSize then .error .nameTooLong
  else .ok ()

/-- Where the components of a name are followed from. -/
def start (d : Disk) (name : String) : Place :=
  if name.toList.head? = some '/' then [] else d.home

/-- The components of a name as written, without regard to separators at its end. -/
def components (name : String) : List String :=
  (Text.fields '/' (Text.trimEnd '/' name.toList)).map String.ofList

/-- The place that a name leads to. -/
def find (d : Disk) (name : String) : Except Fault Place := do
  checkName name
  let p ← (components name).foldlM d.step (d.start name)
  if name.toList.getLast? = some '/' then d.directory p else .ok p

/-- Reads the text of a file. -/
def read (d : Disk) (name : String) : Except Fault String := do
  match d.node? (← d.find name) with
  | some (.file bytes) =>
    match String.fromUTF8? bytes with
    | some text => .ok text
    | none => .error .notText
  | _ => .error .isDirectory

/-- The place that a file of a name would take, which may be in use by another file. -/
def vacancy (d : Disk) (name : String) : Except Fault Place := do
  checkName name
  let cs := components name
  let p ← d.directory (← cs.dropLast.foldlM d.step (d.start name))
  let last := cs.getLastD ""
  if last = "" || last = "." || last = ".." then .error .busy
  else if maxName < last.utf8ByteSize then .error .nameTooLong
  else if name.toList.getLast? = some '/' then .error .notDirectory
  else if d.node? (p ++ [last]) = some .directory then .error .isDirectory
  else .ok (p ++ [last])

/-- Sets what stands at a place. -/
def put (d : Disk) (p : Place) (n : Node) : Disk :=
  { d with nodes := (p, n) :: d.nodes.filter (·.1 ≠ p) }

/-- Removes what stands at a place. -/
def remove (d : Disk) (p : Place) : Disk := { d with nodes := d.nodes.filter (·.1 ≠ p) }

/-- The name of a file in a directory, from the root. -/
def fullName (d : Disk) (directory file : String) : String := join d.homeName (join directory file)

/-- The place of a new file in a directory. -/
def newPlace (d : Disk) (directory file : String) : Except Fault Place := do
  checkName (d.fullName directory file)
  let p ← d.directory (← d.find directory)
  match d.node? (p ++ [file]) with
  | some _ => .error .occupied
  | none => .ok (p ++ [file])

/-- Moves a file to where a name leads. A file that stands there is replaced. -/
def move (d : Disk) (t : Place) (name : String) : Except Fault Disk := do
  let p ← d.vacancy name
  match d.node? t with
  | some n => .ok ((d.remove t).put p n)
  | none => .error .notFound

end Disk

end Provenance
