import Provenance.Version

/-!
Build snapshots: the record that a finished build leaves of its actions, its targets and its outcome,
as it is written down. Paths and labels are still plain texts here.
-/

namespace Provenance

/-- A field that takes nothing, a single text, or a list of texts. -/
inductive TextOrList where
  | empty
  | one (s : String)
  | many (ss : List String)
  deriving DecidableEq

/-- The texts of a field, in whichever form it was written. -/
def TextOrList.toList : TextOrList → List String
  | empty => []
  | one s => [s]
  | many ss => ss

/-- The outcome of the build. -/
structure BuildRecord where
  success : Bool := true
  /-- Labels of the targets that failed. -/
  failed : List String := []
  deriving DecidableEq

/-- The indirection classes that a snapshot can declare. -/
inductive IndirectionRecord where
  | scheduling
  | aggregating
  deriving DecidableEq

/-- An action of the build. -/
structure ActionRecord where
  mnemonic : String
  owner : Option String := none
  inputs : TextOrList := .empty
  outputs : TextOrList
  arguments : List String := []
  indirection : Option IndirectionRecord := none
  deriving DecidableEq

/-- The target kinds that a snapshot can declare. -/
inductive KindRecord where
  | rule
  | file
  deriving DecidableEq

/-- A target of the build. -/
structure TargetRecord where
  label : String
  kind : KindRecord := .rule
  filesToBuild : TextOrList := .empty
  outputGroups : List (String × TextOrList) := []
  attributes : List (String × TextOrList) := []
  deriving DecidableEq

structure Snapshot where
  version : Version
  build : BuildRecord := {}
  /-- Placeholders beside the outputs of indirection actions. -/
  indirections : List String := []
  actions : List ActionRecord := []
  targets : List TargetRecord := []
  deriving DecidableEq

end Provenance
