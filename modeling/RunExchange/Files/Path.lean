import RunExchange.Text.Utf8
/-!
# Files.Path -- joining, splitting and comparing paths

A path is a sequence of bytes.  A text stands for the path of its bytes, and most
paths are texts, but a path need not be one.

Joining puts a separator between a directory and a name unless the directory is
empty or ends in one; an absolute name replaces the directory.  Joining
normalises nothing.  `components` splits a path at its separators, without the
empty pieces.

Two paths are alike when they differ in empty pieces and in `.` alone, except
that a relative path which begins with `.` is like no path that does not.
-/

namespace RunExchange

set_option autoImplicit false

abbrev Path := List UInt8

instance : Coe String Path := ⟨Text.utf8⟩

namespace Path

/-- The byte that separates the pieces of a path. -/
def slash : UInt8 := 0x2f

def isAbsolute (path : Path) : Bool := path.head? == some slash

def endsInSlash (path : Path) : Bool := path.getLast? == some slash

/-- The path of `name` in the directory `dir`. -/
def join (dir name : Path) : Path :=
  if isAbsolute name || dir.isEmpty then name
  else if endsInSlash dir then dir ++ name
  else dir ++ slash :: name

/-- The pieces of a path between its separators, the empty ones left out. -/
def components (path : Path) : List Path :=
  (path.splitOn slash).filter (· ≠ [])

/-- The pieces of a path that matter: all but `.` after the beginning. -/
def essentials (path : Path) : List Path :=
  match components path with
  | [] => []
  | first :: rest =>
      if first = "." ∧ isAbsolute path then rest.filter (· ≠ ".")
      else first :: rest.filter (· ≠ ".")

/-- Two paths are both absolute or both relative and have the same pieces. -/
def Alike (a b : Path) : Prop :=
  isAbsolute a = isAbsolute b ∧ essentials a = essentials b

instance (a b : Path) : Decidable (Alike a b) :=
  inferInstanceAs (Decidable (_ ∧ _))

theorem Alike.refl (path : Path) : Alike path path := ⟨rfl, rfl⟩

end Path

end RunExchange
