import Provenance.Resolution
import Provenance.Snapshot

/-!
Workspaces: the graph, the targets and the outcome of a finished build, made from a snapshot. A
snapshot is accepted if all its labels are well formed, no two targets share a label, and its actions
make up a graph without a cycle. A workspace is a build tool: a requested name stands for a recorded
target, and to build it is to replay what was recorded.
-/

namespace Provenance

/-- A finished build. -/
structure Workspace where
  graph : Graph
  /-- The targets in order of declaration. -/
  targets : List Target
  /-- The labels of the targets that failed. -/
  failed : List Label
  /-- Whether the build succeeded as a whole. -/
  success : Bool
  deriving DecidableEq

/-- Reads a label of a snapshot. -/
def Label.ofRecord (text : String) : Except GraphError Label :=
  (Label.parse text).mapError .invalidLabel

namespace Snapshot

/-- The paths that a snapshot declares to be placeholders: those it lists, and the outputs of every
action with an indirection class. -/
def placeholders (s : Snapshot) : List Path :=
  (s.indirections ++ (s.actions.filter (·.indirection.isSome)).flatMap (·.outputs.toList)).map
    Path.ofString

end Snapshot

namespace Graph

/-- The artifacts at some paths. -/
def artifacts (g : Graph) (paths : TextOrList) : List Artifact :=
  paths.toList.map fun p => g.artifact (.ofString p)

end Graph

/-- The class that a declaration stands for. -/
def Indirection.ofRecord : Option IndirectionRecord → Indirection
  | .none => .none
  | some .scheduling => .scheduling
  | some .aggregating => .aggregating

/-- The kind that a declaration stands for. -/
def TargetKind.ofRecord : KindRecord → TargetKind
  | .rule => .rule
  | .file => .file

/-- The action that a record describes, with its artifacts as a graph knows them. -/
def Action.ofRecord (g : Graph) (r : ActionRecord) : Except GraphError Action := do
  return {
    mnemonic := r.mnemonic
    owner := ← r.owner.mapM Label.ofRecord
    inputs := g.artifacts r.inputs
    outputs := g.artifacts r.outputs
    arguments := r.arguments
    indirection := .ofRecord r.indirection }

namespace Graph

/-- Registers the actions that some records describe. -/
def addRecords (g : Graph) : List ActionRecord → Except GraphError Graph
  | [] => .ok g
  | r :: rs => do
    let (_, g) ← g.add (← Action.ofRecord g r)
    g.addRecords rs

/-- The graph of a snapshot. Placeholders are declared before any action is registered, so that every
use of one is known as such. -/
def ofSnapshot (s : Snapshot) : Except GraphError Graph := do
  let g ← (s.placeholders.foldl mark empty).addRecords s.actions
  g.checkAcyclic
  return g

end Graph

/-- The target that a record describes, with its artifacts as a graph knows them. -/
def Target.ofRecord (g : Graph) (r : TargetRecord) : Except GraphError Target := do
  let label ← Label.ofRecord r.label
  let attributes ← r.attributes.mapM fun (name, labels) => do
    return (name, ← labels.toList.mapM Label.ofRecord)
  let groups := r.outputGroups.map fun (name, files) => (name, g.artifacts files)
  let t : Target := { label, kind := .ofRecord r.kind, filesToBuild := g.artifacts r.filesToBuild }
  let t := groups.foldl (fun t (name, files) => t.withOutputGroup name files) t
  return attributes.foldl (fun t (name, labels) => t.withAttribute name labels) t

/-- The targets that some records describe, after those with the labels seen. -/
def Target.ofRecords (g : Graph) (seen : List Label) :
    List TargetRecord → Except GraphError (List Target)
  | [] => .ok []
  | r :: rs => do
    let t ← Target.ofRecord g r
    if t.label ∈ seen then .error (.duplicateTarget t.label)
    else return t :: (← ofRecords g (t.label :: seen) rs)

namespace Workspace

/-- The workspace of a snapshot. -/
def ofSnapshot (s : Snapshot) : Except GraphError Workspace := do
  let graph ← Graph.ofSnapshot s
  let targets ← Target.ofRecords graph [] s.targets
  let failed ← s.build.failed.mapM Label.ofRecord
  return { graph, targets, failed, success := s.build.success }

/-- The target of a label. -/
def target? (w : Workspace) (l : Label) : Option Target := w.targets.find? (·.label = l)

/-- The target that a requested name stands for: the one of that label or, where names may stand for
files, the first one that owns the file. -/
def resolve? (w : Workspace) (files : Bool) (name : String) : Option Target :=
  let labelled := match Label.parse name with
    | .ok l => w.target? l
    | .error _ => none
  labelled.or (if files then w.targets.find? (·.ownsFile name) else none)

/-- The buildable target of a requested name, or why there is none. -/
def realise (w : Workspace) (files : Bool) (name : String) : Except Warning Target :=
  match w.resolve? files name with
  | none => .error (.unknownName name)
  | some t => if t.label ∈ w.failed then .error (.failedTarget t.label) else .ok t

/-- Builds the rest of a request after the targets realised so far. A target is realised once, in
the place of its first name. -/
def buildFrom (w : Workspace) (r : BuildRequest) (realised : List Target) (success : Bool) :
    List String → BuildResult × List Warning
  | [] => (⟨some realised, success⟩, [])
  | name :: names =>
    match w.realise r.compileOneDependency name with
    | .ok t =>
      let known := (realised.map Target.label).contains t.label
      w.buildFrom r (if known then realised else realised ++ [t]) success names
    | .error warning =>
      if r.keepGoing then
        let (result, warnings) := w.buildFrom r realised false names
        (result, warning :: warnings)
      else (.aborted, [warning])

/-- Replays the build of the requested names. -/
def build (w : Workspace) (r : BuildRequest) : BuildResult × List Warning :=
  w.buildFrom r [] w.success r.names

/-- The workspace as a build tool. -/
def tool (w : Workspace) : BuildTool := ⟨w.graph, w.build⟩

end Workspace

end Provenance
