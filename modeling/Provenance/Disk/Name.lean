import Provenance.Text.Fields

/-!
File names as they are given on a command line. Unlike a path in normal form, a name keeps its
spelling, because messages repeat it.
-/

namespace Provenance.Disk

/-- A name under a directory. A name that starts at the root stands for itself. -/
def join (directory name : String) : String :=
  if name.toList.head? = some '/' then name
  else if directory = "" || directory.toList.getLast? = some '/' then directory ++ name
  else directory ++ "/" ++ name

/-- Strips separators and `.` components from the end of a name, read from its end. What a name
starts with stays. -/
def stripEnd : List Char → List Char
  | '/' :: c :: r => stripEnd (c :: r)
  | '.' :: '/' :: r => stripEnd ('/' :: r)
  | s => s

/-- The directory that a name is in, spelled as in the name. -/
def parent (name : String) : String :=
  let s := stripEnd name.toList.reverse
  let directory := if s = ['/'] then [] else stripEnd (s.dropWhile (· ≠ '/'))
  if directory = [] then "." else String.ofList directory.reverse

end Provenance.Disk
