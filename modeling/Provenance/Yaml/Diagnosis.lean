import Provenance.Yaml.Fault

/-!
YAML faults as they are shown to the author of a text: under the name of the text, with the span that
the fault covers and a hint where the fault looks like a common mistake.
-/

namespace Provenance.Yaml

/-- A message about a text, and the place it is about. -/
structure Complaint where
  message : String
  location : Option Source.Location := none
  deriving DecidableEq

/-- The complaint that a fault gives rise to. -/
def Fault.complaint (f : Fault) : Complaint := ⟨f.cause.message, f.location⟩

namespace Complaint

/-- The message with its place. -/
def text (c : Complaint) : String :=
  match c.location with
  | some l => s!"{c.message} at line {l.line}, column {l.column}"
  | none => c.message

/-- The hint for the author of the text. -/
def hint? (c : Complaint) (src : String) : Option String :=
  Source.hint? src.toList c.text c.location

/-- The span of the text that is shown. -/
def span? (c : Complaint) (src : String) : Option Source.Span :=
  c.location.map (Source.span src.toList)

/-- What is pointed out at the span. -/
def spanLabel : String := "parse error here"

/-- The code that documentation knows every complaint by. -/
def code : String := "whence::snapshot::yaml"

/-- The message shown for a text of a given name. -/
def headline (name : String) : String := s!"YAML parse error in {name}"

end Complaint

end Provenance.Yaml
