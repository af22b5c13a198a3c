import Provenance.Artifact
import Provenance.Label
import Provenance.Table

/-!
Configured targets: what a build made of each target, and the outcome of a build as a whole.
-/

namespace Provenance

/-- Rules register actions; a file target is a plain source file. -/
inductive TargetKind where
  | rule
  | file
  deriving DecidableEq

/-- A target as the build realised it. -/
structure Target where
  label : Label
  kind : TargetKind := .rule
  /-- What is built when the target is requested. -/
  filesToBuild : List Artifact := []
  /-- Named groups of outputs, in order of declaration. -/
  outputGroups : List (String × List Artifact) := []
  /-- Attributes that list labels, in order of declaration. -/
  attributes : List (String × List Label) := []
  deriving DecidableEq

namespace Target

/-- The group of the files that a target compiles. -/
def compiledGroup : String := "files_to_compile"

/-- The attribute that lists a target's sources. -/
def sources : String := "srcs"

/-- The attribute that lists a target's headers. -/
def headers : String := "hdrs"

/-- Adds an output group, or replaces the one of that name. -/
def withOutputGroup (t : Target) (name : String) (files : List Artifact) : Target :=
  { t with outputGroups := put name files t.outputGroups }

/-- Adds an attribute, or replaces the one of that name. -/
def withAttribute (t : Target) (name : String) (labels : List Label) : Target :=
  { t with attributes := put name labels t.attributes }

/-- The artifacts of a group; a group that was not declared has none. -/
def outputGroup (t : Target) (name : String) : List Artifact :=
  (t.outputGroups.lookup name).getD []

/-- The files that a target compiles. -/
def filesToCompile (t : Target) : List Artifact := t.outputGroup compiledGroup

/-- The labels of an attribute, if the target declares it. -/
def attribute? (t : Target) (name : String) : Option (List Label) := t.attributes.lookup name

/-- The files that an attribute lists, as written. -/
def listedFiles (t : Target) (name : String) : List String :=
  ((t.attribute? name).getD []).map Label.pathText

theorem mem_listedFiles_iff {t : Target} {name file : String} :
    file ∈ t.listedFiles name ↔
      ∃ labels, t.attribute? name = some labels ∧ ∃ l ∈ labels, l.pathText = file := by
  rw [listedFiles]
  cases t.attribute? name with
  | none => simp
  | some labels => simp

/-- Whether a file is among a target's sources or headers. -/
def ownsFile (t : Target) (file : String) : Bool :=
  (t.listedFiles sources ++ t.listedFiles headers).contains file

end Target

/-- The outcome of a build. -/
structure BuildResult where
  /-- The targets the build realised, unless it stopped before realising any. -/
  targets : Option (List Target)
  success : Bool
  deriving DecidableEq

namespace BuildResult

/-- A build that realised all it was asked for. -/
def succeeded (targets : List Target) : BuildResult := ⟨some targets, true⟩

/-- A build that stopped at a failure. -/
def aborted : BuildResult := ⟨none, false⟩

end BuildResult

end Provenance
