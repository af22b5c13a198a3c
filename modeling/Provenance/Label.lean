import Provenance.Text.Fields

/-!
Absolute target labels such as `//pkg/sub:name`. A label is a package without a colon or a trailing
separator, and a name that is not empty; `//pkg/sub` is short for `//pkg/sub:sub`. Reading a label's
display form gives the label back.
-/

namespace Provenance

/-- An absolute label. -/
structure Label where
  package : String
  name : String
  colon_not_mem : ':' ∉ package.toList
  package_trimmed : package.toList.getLast? ≠ some '/'
  name_ne : name ≠ ""
  deriving DecidableEq

/-- Why a text is no label. -/
inductive LabelError where
  | notAbsolute (text : String)
  | emptyName (text : String)
  deriving DecidableEq

namespace LabelError

def message : LabelError → String
  | notAbsolute t => s!"label '{t}' must be absolute and start with '//'"
  | emptyName t => s!"label '{t}' has an empty target name"

end LabelError

namespace Label

/-- The label with a given package text, trimmed, and name, unless the name is empty. -/
def build? (package name : List Char) (h : ':' ∉ package) : Option Label :=
  if hn : name = [] then none
  else some {
    package := String.ofList (Text.trimEnd '/' package)
    name := String.ofList name
    colon_not_mem := by simpa using fun hm => h (Text.trimEnd_subset hm)
    package_trimmed := by simpa using Text.trimEnd_getLast? '/' package
    name_ne := by simpa using hn }

/-- Reads a label: the package ends at the first colon, and without a colon the last segment of the
package is the name. -/
def parse (text : String) : Except LabelError Label :=
  match text.toList with
  | '/' :: '/' :: rest =>
    let label? := match h : Text.cut ':' rest with
      | some (package, name) => build? package name (Text.not_mem_cut_fst h)
      | none => build? rest ((Text.fields '/' rest).getLastD []) (Text.not_mem_of_cut_none h)
    match label? with
    | some l => .ok l
    | none => .error (.emptyName text)
  | _ => .error (.notAbsolute text)

/-- The display form `//package:name`. -/
def toString (l : Label) : String := "//" ++ l.package ++ ":" ++ l.name

instance : ToString Label := ⟨toString⟩

/-- The workspace-relative file that a file label means, as written. -/
def pathText (l : Label) : String :=
  if l.package = "" then l.name else l.package ++ "/" ++ l.name

/-- By package, then by name. -/
instance : Ord Label := ⟨fun a b => (compare a.package b.package).then (compare a.name b.name)⟩

end Label

end Provenance
