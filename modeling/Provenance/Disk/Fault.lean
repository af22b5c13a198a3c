import Provenance.Text.Shown

/-!
What can go wrong when a file is looked up, read or written. A file is written in three steps: an
empty temporary file is made in the same directory, it is filled with the whole text, and it takes the
place of the file.
-/

namespace Provenance.Disk

inductive Fault where
  /-- A name on the way does not exist. -/
  | notFound
  /-- A directory stands where a file is due. -/
  | isDirectory
  /-- A file stands where a directory is due. -/
  | notDirectory
  /-- The place can not be taken, because it is in use. -/
  | busy
  /-- Something stands already where a new file is due. -/
  | occupied
  | nameTooLong
  /-- The name holds a null character, which no file name can. -/
  | nullInName
  /-- The bytes of the file are no UTF-8 text. -/
  | notText
  /-- Any other fault, in the words of the system. -/
  | other (text : String)
  deriving DecidableEq

namespace Fault

def message : Fault → String
  | notFound => "No such file or directory (os error 2)"
  | isDirectory => "Is a directory (os error 21)"
  | notDirectory => "Not a directory (os error 20)"
  | busy => "Device or resource busy (os error 16)"
  | occupied => "File exists (os error 17)"
  | nameTooLong => "File name too long (os error 36)"
  | nullInName => "file name contained an unexpected NUL byte"
  | notText => "stream did not contain valid UTF-8"
  | other text => text

end Fault

/-- Why a file was not written. -/
inductive WriteFault where
  /-- There is no temporary file of the given name. -/
  | staging (directory temporary : String) (fault : Fault)
  /-- The temporary file could not be filled. -/
  | filling (fault : Fault)
  /-- The temporary file did not take the place of the file. -/
  | replacing (name : String) (fault : Fault)
  deriving DecidableEq

namespace WriteFault

def message : WriteFault → String
  | staging directory _ _ => s!"creating temporary file in {directory}"
  | filling _ => "writing actions to temporary file"
  | replacing name _ => s!"writing actions to {name}"

/-- The messages of what lies behind a fault, the nearest first. -/
def causes : WriteFault → List String
  | staging _ temporary f => [s!"{f.message} at path {Text.shown temporary}"]
  | filling f => [f.message]
  | replacing _ f => [s!"failed to persist temporary file: {f.message}", f.message]

end WriteFault

end Provenance.Disk
