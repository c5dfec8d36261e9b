import RunExchange.Files.Error
import RunExchange.Files.Path
/-!
# Files.Tree -- a file tree and a directory in it

A tree maps addresses, lists of names from its top, to files and directories.
It holds no links.  Reading and writing go by paths: an absolute path is
followed from the top and any other from the current directory, name by name
through directories that exist; `.` stays, and `..` goes up unless at the top.
Long names and long paths are refused, a long path before any of its names.

A write that succeeds changes the entry of one address and no other
(`get?_put`); a write that fails has no tree to return.
-/

namespace RunExchange

set_option autoImplicit false

/-- What an address holds. -/
inductive Entry
  | directory
  | file (content : ByteArray)

instance : DecidableEq Entry
  | .directory, .directory => .isTrue rfl
  | .file a, .file b => decidable_of_iff (a.data = b.data) (by simp [ByteArray.ext_iff])
  | .directory, .file _ => .isFalse nofun
  | .file _, .directory => .isFalse nofun

/-- The names from the top of a tree down to an entry. -/
abbrev Address := List Path

structure FileTree where
  entries : List (Address × Entry)
  /-- Where relative paths start. -/
  current : Address

namespace FileTree

/-- The tree that is empty but for its top. -/
def empty : FileTree := ⟨[], []⟩

instance : Inhabited FileTree := ⟨empty⟩

def lookup (address : Address) : List (Address × Entry) → Option Entry
  | [] => none
  | (here, entry) :: rest => if here = address then some entry else lookup address rest

/-- The entry of an address; the top is a directory. -/
def get? (tree : FileTree) (address : Address) : Option Entry :=
  if address = [] then some .directory else lookup address tree.entries

def replace (address : Address) (entry : Entry) : List (Address × Entry) → List (Address × Entry)
  | [] => [(address, entry)]
  | (here, old) :: rest =>
      if here = address then (address, entry) :: rest else (here, old) :: replace address entry rest

/-- Give an address an entry. -/
def put (tree : FileTree) (address : Address) (entry : Entry) : FileTree :=
  { tree with entries := replace address entry tree.entries }

theorem lookup_replace (address other : Address) (entry : Entry)
    (entries : List (Address × Entry)) :
    lookup other (replace address entry entries) =
      if other = address then some entry else lookup other entries := by
  induction entries with
  | nil => simp [lookup, replace, eq_comm]
  | cons head rest ih =>
      obtain ⟨here, old⟩ := head
      by_cases same : here = address
      · subst same
        by_cases hit : other = here <;> simp [lookup, replace, hit, eq_comm]
      · by_cases hit : here = other
        · simp [lookup, replace, same, ← hit]
        · simp [lookup, replace, same, hit, ih]

theorem get?_put (tree : FileTree) {address : Address} (h : address ≠ []) (other : Address)
    (entry : Entry) :
    (tree.put address entry).get? other =
      if other = address then some entry else tree.get? other := by
  by_cases top : other = []
  · subst top; simp [get?, h.symm]
  · simp [get?, put, top, lookup_replace]

/-! ## Following paths -/

/-- Where a path leads. -/
inductive Place
  | directory (address : Address)
  | file (address : Address) (content : ByteArray)
  /-- A name in an existing directory that nothing has. -/
  | vacant (address : Address)

/-- The longest name, in bytes. -/
def nameLimit : Nat := 255

/-- The longest path, in bytes. -/
def pathLimit : Nat := 4095

/-- Go from a directory to the directory of a name in it. -/
def descend (tree : FileTree) (here : Address) (name : Path) : Except IoError Address :=
  if name = "." then .ok here
  else if name = ".." then .ok here.dropLast
  else if nameLimit < name.length then .error .nameTooLong
  else
    match tree.get? (here ++ [name]) with
    | none => .error .notFound
    | some (.file _) => .error .notDirectory
    | some .directory => .ok (here ++ [name])

/-- Go down through directories. -/
def enter (tree : FileTree) : Address → List Path → Except IoError Address
  | here, [] => .ok here
  | here, name :: rest => do tree.enter (← tree.descend here name) rest

/-- The place of a name in a directory. -/
def placeIn (tree : FileTree) (parent : Address) (name : Path) : Except IoError Place :=
  if name = "." ∨ name = ".." then do return .directory (← tree.descend parent name)
  else if nameLimit < name.length then .error .nameTooLong
  else
    match tree.get? (parent ++ [name]) with
    | none => .ok (.vacant (parent ++ [name]))
    | some .directory => .ok (.directory (parent ++ [name]))
    | some (.file content) => .ok (.file (parent ++ [name]) content)

/-- The directory from which a path is followed. -/
def start (tree : FileTree) (path : Path) : Address :=
  if Path.isAbsolute path then [] else tree.current

/-- Follow a path to the directory in which it ends.  The answer is that
directory and the last name; a path of separators alone has none. -/
def approach (tree : FileTree) (path : Path) : Except IoError (Address × Option Path) :=
  if path.contains 0 then .error .nulInPath
  else if path.isEmpty then .error .notFound
  else if pathLimit < path.length then .error .nameTooLong
  else do
    let names := Path.components path
    return (← tree.enter (tree.start path) names.dropLast, names.getLast?)

/-- Follow a path to its end. -/
def locate (tree : FileTree) (path : Path) : Except IoError Place := do
  match ← tree.approach path with
  | (here, none) => return .directory here
  | (here, some name) => tree.placeIn here name

/-- The bytes of the file at a path.  A separator at the end asks for a
directory. -/
def readBytes (tree : FileTree) (path : Path) : Except IoError ByteArray := do
  match ← tree.locate path with
  | .directory _ => .error .isDirectory
  | .vacant _ => .error .notFound
  | .file _ content => if Path.endsInSlash path then .error .notDirectory else return content

/-- The text of the file at a path. -/
def readText (tree : FileTree) (path : Path) : Except IoError String := do
  match String.fromUTF8? (← tree.readBytes path) with
  | none => .error .notUtf8
  | some text => return text

/-- Whether a path leads to a file or a directory. -/
def holds (tree : FileTree) (path : Path) : Bool :=
  match tree.locate path with
  | .ok (.directory _) => true
  | .ok (.file _ _) => !Path.endsInSlash path
  | _ => false

/-- The address that a write to a path replaces.  A separator at the end asks for
a directory, whatever the last name is. -/
def target (tree : FileTree) (path : Path) : Except IoError Address := do
  match ← tree.approach path with
  | (_, none) => .error .isDirectory
  | (here, some name) =>
      if Path.endsInSlash path then .error .isDirectory
      else
        match ← tree.placeIn here name with
        | .directory _ => .error .isDirectory
        | .file address _ | .vacant address => return address

/-- Replace the file at a path by a text. -/
def write (tree : FileTree) (path : Path) (text : String) : Except IoError FileTree := do
  let address ← tree.target path
  return tree.put address (.file text.toUTF8)

/-! ## Whole trees -/

/-- The addresses on the way to an address, the longest last. -/
def above (address : Address) : List Address :=
  (List.range address.length).map address.take

/-- Add an entry, and the directories above it that are missing. -/
def install (tree : FileTree) (address : Address) (entry : Entry) : FileTree :=
  let tree := (above address).foldl
    (fun tree address => if (tree.get? address).isSome then tree else tree.put address .directory)
    tree
  if address = [] then tree else tree.put address entry

/-- The tree with a current directory and the entries at these paths in it. -/
def ofList (current : Address) (files : List (Path × Entry)) : FileTree :=
  files.foldl (fun tree file => tree.install (current ++ Path.components file.1) file.2)
    { empty.install current .directory with current }

/-- The paths of everything in the current directory. -/
def toList (tree : FileTree) : List (Path × Entry) :=
  tree.entries.filterMap fun (address, entry) =>
    if tree.current.isPrefixOf address && tree.current.length < address.length then
      some ([Path.slash].intercalate (address.drop tree.current.length), entry)
    else none

end FileTree

end RunExchange
