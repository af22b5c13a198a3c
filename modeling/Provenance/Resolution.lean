import Provenance.Matcher
import Provenance.Report
import Provenance.Warning

/-!
Resolution of a request into a report. A build tool realises the targets behind the requested names;
the actions to print are then found target by target, either by matching requested files against the
actions that compile each target, or by collecting all that a target needs. A resolution ends with a
report or with a failure, never with both, and warns along the way.
-/

namespace Provenance

/-- What a build is asked for. -/
structure BuildRequest where
  names : List String
  /-- Whether names stand for files, whose owning targets are to be built. -/
  compileOneDependency : Bool
  /-- Whether to go on past names and targets that fail. -/
  keepGoing : Bool
  deriving DecidableEq

/-- The build behind a resolution: its graph, and what it realises for a request. -/
structure BuildTool where
  graph : Graph
  build : BuildRequest → BuildResult × List Warning

/-- How requested names are understood. -/
inductive Mode where
  /-- As targets, of which every needed action is printed. -/
  | target
  /-- As files, of which each has the action that compiles it printed. -/
  | files
  deriving DecidableEq

/-- What to print. -/
structure Request where
  targets : List String := []
  files : List String := []
  mode : Mode := .target
  mnemonics : MnemonicFilter := []
  keepGoing : Bool := false
  deriving DecidableEq

/-- What a request asks the build for. -/
def Request.buildRequest (r : Request) : BuildRequest :=
  ⟨r.targets, r.mode = .files, r.keepGoing⟩

/-- Why a resolution found nothing to print. -/
inductive ResolutionError where
  | buildFailed (names : List String)
  | unsupportedTarget (label : Label)
  | noMatches (files : List String) (targets : List Label)
  deriving DecidableEq

namespace ResolutionError

/-- Names with commas between them. -/
def enumerate (names : List String) : String := ", ".intercalate names

/-- Files in targets, or whichever of the two there are. -/
def describe (files targets : List String) : String :=
  match files, targets with
  | [], [] => "the request"
  | fs, [] => enumerate fs
  | [], ts => enumerate ts
  | fs, ts => s!"{enumerate fs} in {enumerate ts}"

def message : ResolutionError → String
  | buildFailed ns => s!"build failed when printing actions for {enumerate ns}"
  | unsupportedTarget l => s!"{l.toString} is not a supported target kind"
  | noMatches fs ts => s!"no actions to print were found for {describe fs (ts.map Label.toString)}"

/-- The code that documentation knows an error by. -/
def code : ResolutionError → String
  | buildFailed _ => "whence::print_action::build_failed"
  | unsupportedTarget _ => "whence::print_action::unsupported_target"
  | noMatches _ _ => "whence::print_action::no_matches"

def help : ResolutionError → String
  | buildFailed _ => "pass --keep-going to print actions for the targets that did build"
  | unsupportedTarget _ =>
    "only targets with a non-empty `files_to_compile` output group are supported"
  | noMatches _ _ => "files must be given as workspace-relative paths, for example `pkg/a.cc`"

/-- The exit code of a process that ends with the error. -/
def exitCode : ResolutionError → Nat
  | buildFailed _ => 1
  | unsupportedTarget _ => 2
  | noMatches _ _ => 2

end ResolutionError

namespace Request

/-- The targets to print actions of: those realised, unless the build failed and was to stop. -/
def accept (r : Request) (result : BuildResult) : Except ResolutionError (List Target) :=
  match result.targets with
  | some ts =>
    if result.success || r.keepGoing then
      match ts.find? fun t => t.filesToCompile.isEmpty with
      | some t => .error (.unsupportedTarget t.label)
      | none => .ok ts
    else .error (.buildFailed r.targets)
  | none => .error (.buildFailed r.targets)

/-- All actions that a target needs, if it is a rule. -/
def neededActions (g : Graph) (mnemonics : MnemonicFilter) (t : Target) : List Action :=
  match t.kind with
  | .rule => (g.collect t.filesToBuild mnemonics).filterMap g.action?
  | .file => []

/-- The actions to print for some targets, and the requested files that were left over. -/
def gather (r : Request) (g : Graph) (ts : List Target) : List Action × List String :=
  match r.mode with
  | .files =>
    let (found, m) := Matcher.gatherAll ⟨.ofList r.files, r.mnemonics⟩ g ts
    (found, m.pending.files)
  | .target => (ts.flatMap (neededActions g r.mnemonics), [])

/-- The report on some actions, which must not be empty. -/
def report (r : Request) (result : BuildResult) (ts : List Target) (found : List Action) :
    Except ResolutionError Report :=
  if found.isEmpty then .error (.noMatches r.files (ts.map Target.label))
  else .ok ⟨found.map Action.entry, result.success⟩

/-- Resolves a request over a build. -/
def resolve (tool : BuildTool) (r : Request) : Except ResolutionError Report × List Warning :=
  let (result, warnings) := tool.build r.buildRequest
  match r.accept result with
  | .error e => (.error e, warnings)
  | .ok ts =>
    let (found, left) := r.gather tool.graph ts
    (r.report result ts found, warnings ++ if left.isEmpty then [] else [.unmatched left])

end Request

end Provenance
