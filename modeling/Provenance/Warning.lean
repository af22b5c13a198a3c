import Provenance.Label
import Provenance.Text.Shown

/-!
What goes wrong without ending a run.
-/

namespace Provenance

inductive Warning where
  /-- A requested name that no target answers to. -/
  | unknownName (name : String)
  /-- A requested target that the build recorded as failed. -/
  | failedTarget (label : Label)
  /-- Requested files that no action consumed. -/
  | unmatched (files : List String)
  /-- The actions printed may be incomplete, because the build did not succeed. -/
  | partialBuild
  deriving DecidableEq

namespace Warning

def message : Warning → String
  | unknownName _ => "no target matches requested name"
  | failedTarget _ => "target failed to build"
  | unmatched _ => "requested files without a producing action"
  | partialBuild => "build did not complete successfully; printed actions may be incomplete"

/-- The named values that go with the message. -/
def fields : Warning → List (String × String)
  | unknownName n => [("name", n)]
  | failedTarget l => [("label", l.toString)]
  | unmatched fs => [("unmatched", Text.shownList fs)]
  | partialBuild => []

end Warning

end Provenance
