import Provenance.Disk
import Provenance.Run

/-!
Modelled machines: a disk and a screen as plain values, so that what a run leaves behind can be
looked at.
-/

namespace Provenance

/-- A modelled machine: a disk, and what was printed so far. -/
structure Machine where
  disk : Disk
  printed : String := ""

namespace Machine

/-- Makes an empty file in a directory, unless a file of that name is there already. -/
def create (file directory : String) :
    StateM Machine (Except (String × Disk.Fault) Disk.Place) := do
  let s ← get
  match s.disk.newPlace directory file with
  | .ok t =>
    set { s with disk := s.disk.put t (.file .empty) }
    return .ok t
  | .error f => return .error (s.disk.fullName directory file, f)

/-- The name of temporary files. -/
def temporaryName : String := ".tmpXXXXXX"

/-- A modelled machine as the host of a run. -/
def host : Host (StateM Machine) Disk.Place where
  parse := Yaml.read
  read name := return (← get).disk.read name
  create := create temporaryName
  fill t text := do
    modify fun s => { s with disk := s.disk.put t (.file text.toUTF8) }
    return .ok ()
  persist t name := do
    let s ← get
    match s.disk.move t name with
    | .ok disk =>
      set { s with disk }
      return .ok ()
    | .error f => return .error f
  discard t := modify fun s => { s with disk := s.disk.remove t }
  print text := modify fun s => { s with printed := s.printed ++ text }

end Machine

end Provenance
