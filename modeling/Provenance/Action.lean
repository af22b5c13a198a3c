import Provenance.Artifact
import Provenance.Label

/-!
Actions: the steps of a build. An action reads its inputs and writes its outputs; an action of an
indirection class writes placeholders instead of files.
-/

namespace Provenance

/-- What an action's outputs stand for. -/
inductive Indirection where
  /-- Real files. -/
  | none
  /-- A scheduling dependency, which the search for real inputs sees through. -/
  | scheduling
  /-- A group of files for some other purpose, where that search stops. -/
  | aggregating
  deriving DecidableEq

/-- A step of a build. -/
structure Action where
  /-- The kind of the action, such as `CppCompile`. -/
  mnemonic : String
  /-- The target that registered the action. -/
  owner : Option Label := Option.none
  inputs : List Artifact := []
  outputs : List Artifact := []
  arguments : List String := []
  indirection : Indirection := .none
  deriving DecidableEq

namespace Action

/-- The paths that an action reads. -/
def inputPaths (a : Action) : List Path := a.inputs.map Artifact.path

/-- The paths that an action writes. -/
def outputPaths (a : Action) : List Path := a.outputs.map Artifact.path

/-- The output an action is described by. -/
def primaryOutput? (a : Action) : Option Artifact := a.outputs.head?

end Action

/-- The number of an action within its graph, counted in order of registration. -/
abbrev ActionId := Nat

/-- The written form of an action's number. -/
def ActionId.text (i : ActionId) : String := s!"#{i}"

end Provenance
