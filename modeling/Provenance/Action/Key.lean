import Provenance.Action
import Provenance.Sha256

/-!
The key of an action: a digest of everything that makes the action what it is. Each field enters the
digested bytes under its own length, so that two actions with the same bytes are the same action up
to the placeholder marks of their artifacts.
-/

namespace Provenance

/-- The UTF-8 bytes of a text. -/
def utf8 (s : String) : List UInt8 := s.toUTF8.toList

/-- Bytes after their count, which a colon ends. -/
def sized (bytes : List UInt8) : List UInt8 := utf8 s!"{bytes.length}:" ++ bytes

/-- A list of texts: a tag, the number of texts, and each text with its size. -/
def sizedList (tag : String) (texts : List String) : List UInt8 :=
  utf8 tag ++ sized (utf8 (toString texts.length)) ++ texts.flatMap (sized ∘ utf8)

namespace Indirection

/-- The byte that stands for an indirection class. -/
def mark : Indirection → List UInt8
  | .none => utf8 "0"
  | .scheduling => utf8 "1"
  | .aggregating => utf8 "2"

end Indirection

namespace Action

/-- The owner's part of an action's bytes. -/
def ownerBytes : Option Label → List UInt8
  | some l => utf8 "1" ++ sized (utf8 l.toString)
  | .none => utf8 "0"

/-- The bytes that an action's key is the digest of. -/
def keyBytes (a : Action) : List UInt8 :=
  utf8 "mnemonic" ++ sized (utf8 a.mnemonic) ++ ownerBytes a.owner ++
    sizedList "args" a.arguments ++ sizedList "inputs" (a.inputPaths.map Path.toString) ++
    sizedList "outputs" (a.outputPaths.map Path.toString) ++ a.indirection.mark

/-- The key that identifies an action wherever it is printed. -/
def key (a : Action) : String := Sha256.hex (Sha256.digest a.keyBytes)

end Action

end Provenance
