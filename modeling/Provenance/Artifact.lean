import Provenance.Path

/-!
The file-like nodes of a build. A placeholder never becomes a file: it stands in for a set of files
that is only known as a scheduling dependency.
-/

namespace Provenance

/-- A real file, or a placeholder, at a path. -/
structure Artifact where
  path : Path
  placeholder : Bool
  deriving DecidableEq

namespace Artifact

instance : ToString Artifact := ⟨fun a => a.path.toString⟩

/-- By path, and a real file before a placeholder at the same path. -/
instance : Ord Artifact := ⟨fun a b => (compare a.path b.path).then (compare a.placeholder b.placeholder)⟩

/-- The real file at a path. -/
def file (p : Path) : Artifact := ⟨p, false⟩

/-- The placeholder at a path. -/
def standIn (p : Path) : Artifact := ⟨p, true⟩

end Artifact

end Provenance
