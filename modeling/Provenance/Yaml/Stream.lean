import Provenance.Yaml.Diagnosis
import Provenance.Yaml.Node.Reading
import Provenance.Yaml.Token.Scan

/-!
The document of a YAML text. A text must not hold more than one document; where it holds none, it
stands for null. Faults that come after the end of the document do not matter, as long as no other
document has started.
-/

namespace Provenance.Yaml

namespace Read

/-- Goes past the marks that end documents. -/
def skipDocumentEnds : Nat → Read Unit
  | 0 => return
  | n + 1 => do if ← accept .documentEnd then skipDocumentEnds n

/-- Goes past directives. Of several directives only the last one has an effect. -/
def directives (version : Bool) : Nat → Read Unit
  | 0 => return
  | n + 1 => do
    let t ← peek
    match t.kind with
    | .versionDirective =>
      if version then let _ ← stop .badDirective
      else do
        skip
        modify fun r => { r with handles := [] }
        directives true n
    | .tagDirective handle target => do
      skip
      modify fun r => { r with handles := [(handle, target)] }
      directives version n
    | _ => return

def isDirective : TokenKind → Bool
  | .versionDirective => true
  | .tagDirective _ _ => true
  | _ => false

/-- Whether a token can only come before or after a document. -/
def isOutside (k : TokenKind) : Bool :=
  isDirective k || [.documentStart, .documentEnd, .streamEnd].contains k

/-- The root of the document that starts here, or why none does. A document may start without a mark
if `bare` holds and there are no directives. -/
def root (bare : Bool) (n : Nat) : Read (Except Fault Node) := do
  let t ← peek
  match t.kind, bare && !isOutside t.kind with
  | .broken f, _ => return .error f
  | _, true => return .ok (← node true false n)
  | _, false => do
    directives false n
    if !(← accept .documentStart) then return .error (← stop .expectedDocumentStart)
    else if isOutside (← peek).kind then return .ok (← absent)
    else return .ok (← node true false n)

/-- Refuses another document. The fault that keeps it from starting, if there is one, is more to the
point than that it is one too many. -/
def refuse (root : Node) : Except Fault Unit :=
  match root.start, root.cut with
  | some l, _ => .error ⟨.severalDocuments, some l⟩
  | none, some f => .error f
  | none, none => .error ⟨.severalDocuments, none⟩

/-- What ends the document that was read, if nothing is wrong with its end. -/
def documentEnd (n : Nat) : Read (Except Fault Unit) := do
  let t ← peek
  match t.kind with
  | .broken f => return .error f
  | k =>
    if isDirective k then return .error (← stop .directiveInDocument)
    else do
      let marked ← accept .documentEnd
      modify fun r => { r with handles := [] }
      skipDocumentEnds n
      if (← peek).kind = .streamEnd then return .ok ()
      else match ← root marked n with
        | .ok another => return refuse another
        | .error _ => return .ok ()

/-- The document of a text, if there is one. -/
def stream (n : Nat) : Read (Except Fault (Option Document)) := do
  skipDocumentEnds n
  if (← peek).kind = .streamEnd then return .ok none
  else match ← root true n with
    | .error f => return .error f
    | .ok root =>
      match root.document with
      | .error f => return .error f
      | .ok d =>
        match ← documentEnd n with
        | .error f => return .error f
        | .ok () =>
          if (← get).hasTooManyAliases then return .error ⟨.tooManyAliases, none⟩
          else return .ok (some d)

end Read

/-- Whether two closing brackets with a blank between them are anywhere in a text. -/
def hasAdjoiningBrackets (s : List Char) : Bool := Source.holds [']', ' ', ']'] s

/-- Whether a text ends with two closing brackets. -/
def endsWithBrackets (s : List Char) : Bool :=
  let ending := (Text.trim s).reverse.take 2
  ending = [']', ']'] || ending = ['\x7d', '\x7d']

/-- Whether the first of two lines is a plain scalar with a comment after it, and the second one
seems to go on with the scalar at the start of the line. -/
def interruptsScalar (line after : List Char) : Bool :=
  let content := line.takeWhile (· ≠ '#')
  let trimmed := content.dropWhile Text.isBlank
  let starts (s : String) (cs : List Char) := s.toList.isPrefixOf cs
  content ≠ line && trimmed ≠ [] &&
    !content.any (fun c => c = ':' || c = '[' || c = '\x7b') && !starts "- " trimmed &&
    after.any (!Text.isBlank ·) && !after.head?.any isBlank &&
    !(after.head? ≠ some ':' && after.contains ':') &&
    ["---", "...", "#"].all fun s => !starts s after

/-- Whether a comment interrupts a plain scalar anywhere in some lines. -/
def hasInterruptedScalar : List (List Char) → Bool
  | a :: b :: r => interruptsScalar a b || hasInterruptedScalar (b :: r)
  | _ => false

/-- Reads a text. It ends at the first null character, and a byte order mark before it is left
out. -/
def parse (text : String) : Except Fault Document :=
  let s := match text.toList with
    | '\ufeff' :: r => r
    | s => s
  if hasAdjoiningBrackets s then .error ⟨.adjoiningBrackets, none⟩
  else if hasInterruptedScalar (Source.lines s) then .error ⟨.commentInScalar, none⟩
  else
    let ts := tokens (s.takeWhile (· ≠ '\x00'))
    match ((Read.stream (8 * ts.length + 8)).run ⟨ts, [], [], 0, 0, 0, 0⟩).1 with
    | .error f => .error f
    | .ok (some d) => .ok d
    | .ok none => if endsWithBrackets s then .error ⟨.bracketsWithoutDocument, none⟩ else .ok .null

/-- A reader of texts, which gives the document of a text or says what is wrong with it. -/
abbrev Parser := String → Except Complaint Document

/-- The reader that this module is about. -/
def read : Parser := fun text => (parse text).mapError Fault.complaint

end Provenance.Yaml
