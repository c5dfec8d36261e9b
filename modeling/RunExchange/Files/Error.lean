/-!
# Files.Error -- why a file cannot be read or written
-/

namespace RunExchange

set_option autoImplicit false

inductive IoError
  /-- Nothing is there, or a directory on the way is missing. -/
  | notFound
  | isDirectory
  /-- A file stands where a directory is needed. -/
  | notDirectory
  /-- A name of more than 255 bytes or a path of more than 4095. -/
  | nameTooLong
  /-- A path with a NUL byte. -/
  | nulInPath
  | notUtf8
  /-- A resource that a store in memory does not hold. -/
  | absent
deriving DecidableEq

namespace IoError

/-- The kind of an error, coarser than its text. -/
def kind : IoError → String
  | .notFound | .absent => "NotFound"
  | .isDirectory => "IsADirectory"
  | .notDirectory => "NotADirectory"
  | .nameTooLong => "InvalidFilename"
  | .nulInPath => "InvalidInput"
  | .notUtf8 => "InvalidData"

def message : IoError → String
  | .notFound => "No such file or directory (os error 2)"
  | .isDirectory => "Is a directory (os error 21)"
  | .notDirectory => "Not a directory (os error 20)"
  | .nameTooLong => "File name too long (os error 36)"
  | .nulInPath => "file name contained an unexpected NUL byte"
  | .notUtf8 => "stream did not contain valid UTF-8"
  | .absent => "resource not present"

end IoError

end RunExchange
