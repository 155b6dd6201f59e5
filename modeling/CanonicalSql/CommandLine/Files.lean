/-!
# Files

The files that a call can see, and what it finds at a path. A path is followed name by name,
from the directory that the call works in or, after a slash, from the root; the first name
that leads nowhere decides why nothing is found.
-/
namespace CanonicalSql.CommandLine

/-- Why the text of a statement could not be read. -/
inductive ReadError
  | noSuchFile
  | permissionDenied
  | notADirectory
  | isADirectory
  | nameTooLong
  | tooManyLinks
  /-- The bytes are not UTF-8. -/
  | notText
  /-- Another reason, in the words of the system. -/
  | other (reason : String)
deriving DecidableEq, Repr, Inhabited

/-- The message. -/
def ReadError.message : ReadError → String
  | .noSuchFile => "No such file or directory (os error 2)"
  | .permissionDenied => "Permission denied (os error 13)"
  | .notADirectory => "Not a directory (os error 20)"
  | .isADirectory => "Is a directory (os error 21)"
  | .nameTooLong => "File name too long (os error 36)"
  | .tooManyLinks => "Too many levels of symbolic links (os error 40)"
  | .notText => "stream did not contain valid UTF-8"
  | .other reason => reason

/-- The names on the way from the root. -/
abbrev Location := List String

/-- The files that a call can see. -/
structure Files where
  /-- The directory that the call works in. -/
  working : Location
  /-- What each file holds. -/
  contents : List (Location × ByteArray)
deriving Inhabited

namespace Files

/-- What the file at a location holds. -/
def contentsAt? (files : Files) (location : Location) : Option ByteArray :=
  files.contents.lookup location

/-- Whether there is a directory at a location: one that the call works in, one that holds
a file, or one above these. -/
def isDirectory (files : Files) (location : Location) : Bool :=
  location.isPrefixOf files.working ||
    files.contents.any fun (file, _) => location.isPrefixOf file && location != file

/-- Follows one name of a path. An empty name stays where it is, as a dot does, but only in
a directory; above the root is the root. -/
def follow (files : Files) (here : Location) (name : String) : Except ReadError Location :=
  if !files.isDirectory here then .error .notADirectory
  else if name = "" ∨ name = "." then .ok here
  else if name = ".." then .ok here.dropLast
  else if 255 < name.utf8ByteSize then .error .nameTooLong
  else
    let there := here ++ [name]
    if files.isDirectory there || (files.contentsAt? there).isSome then .ok there
    else .error .noSuchFile

/-- Where a path leads. Its length is limited as a whole too. -/
def locate (files : Files) (path : String) : Except ReadError Location :=
  if path = "" then .error .noSuchFile
  else if 4095 < path.utf8ByteSize then .error .nameTooLong
  else
    let start := if path.startsWith "/" then [] else files.working
    (path.splitOn "/").foldlM files.follow start

/-- What the file at a path holds. -/
def read (files : Files) (path : String) : Except ReadError ByteArray := do
  match files.contentsAt? (← files.locate path) with
  | some bytes => return bytes
  | none => throw .isADirectory

end Files

end CanonicalSql.CommandLine
