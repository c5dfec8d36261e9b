import Mathlib.Tactic
import RunExchange.Files.Tree
import RunExchange.Proofs.Sequence
/-!
# Proofs.Files.Following -- the file of a name in a directory

A path made of a directory and a plain name leads where the directory leads, and
then to the name in it.  That address is the slot of the name (`slot`).  Reading
the path reads what the slot holds, and writing it replaces that
(`readBytes_join`, `target_join`).

Giving a slot a file changes no other slot: a directory on the way is never a
slot that was free or held a file (`sameWays_put`).  So two names in one directory
are read independently (`readBytes_put`), however the directory is spelled.
-/

namespace RunExchange

set_option autoImplicit false

/-! ## Joined paths -/

/-- A path that is one component and leads down. -/
structure Path.IsName (name : Path) : Prop where
  notEmpty : name ≠ []
  undivided : slash ∉ name
  notHere : name ≠ "."
  notUp : name ≠ ".."

namespace Path

section Join

variable {name : Path} (isName : IsName name)
include isName

theorem IsName.isAbsolute : isAbsolute name = false := by
  rw [Path.isAbsolute, beq_eq_false_iff_ne]
  intro first
  exact isName.undivided (List.mem_of_head? first)

/-- A name stands alone, or behind the last separator of its path. -/
theorem join_cases (dir : Path) :
    (dir = [] ∧ join dir name = name) ∨
      ∃ front, join dir name = front ++ slash :: name ∧
        (dir = front ++ [slash] ∨ dir = front ∧ front ≠ []) := by
  rw [join, isName.isAbsolute, Bool.false_or]
  split
  · next nothing => exact .inl ⟨by simpa using nothing, rfl⟩
  · next something =>
      right
      split
      · next closed =>
          rw [endsInSlash, beq_iff_eq] at closed
          obtain ⟨front, spelled⟩ := List.getLast?_eq_some_iff.1 closed
          exact ⟨front, by simp [spelled], .inl spelled⟩
      · exact ⟨dir, by simp, .inr ⟨rfl, by simpa using something⟩⟩

theorem components_name : components name = [name] := by
  rw [components, List.splitOn_eq_singleton isName.undivided]
  simp [isName.notEmpty]

theorem components_join (dir : Path) :
    components (join dir name) = components dir ++ [name] := by
  have alone := components_name isName
  rcases join_cases isName dir with ⟨rfl, same⟩ | ⟨front, spelled, dirSpelled⟩
  · rw [same, alone]
    rfl
  · rw [components] at alone ⊢
    rw [spelled, List.splitOn_append_cons_self, List.filter_append, alone]
    congr 1
    rcases dirSpelled with slash | ⟨plain, -⟩
    · rw [components, slash, List.splitOn_append_cons_self, List.filter_append]
      simp
    · rw [components, plain]

theorem isAbsolute_join (dir : Path) : isAbsolute (join dir name) = isAbsolute dir := by
  rcases join_cases isName dir with ⟨rfl, same⟩ | ⟨front, spelled, dirSpelled⟩
  · rw [same, isName.isAbsolute]
    rfl
  · rw [isAbsolute, isAbsolute, spelled]
    rcases dirSpelled with slash | ⟨plain, some⟩
    · rw [slash]
      cases front <;> rfl
    · rw [plain]
      obtain ⟨first, front, rfl⟩ := List.exists_cons_of_ne_nil some
      rfl

theorem endsInSlash_join (dir : Path) : endsInSlash (join dir name) = false := by
  have last : (join dir name).getLast? = name.getLast? := by
    rcases join_cases isName dir with ⟨-, same⟩ | ⟨front, spelled, -⟩
    · rw [same]
    · rw [spelled, List.getLast?_append_of_ne_nil _ (by simp),
        List.getLast?_cons_of_ne_nil isName.notEmpty]
  rw [endsInSlash, last, beq_eq_false_iff_ne]
  intro slash
  exact isName.undivided (List.mem_of_getLast? slash)

theorem isEmpty_join (dir : Path) : (join dir name).isEmpty = false := by
  have filled : join dir name ≠ [] := by
    rcases join_cases isName dir with ⟨-, same⟩ | ⟨front, spelled, -⟩
    · rw [same]
      exact isName.notEmpty
    · rw [spelled]
      simp
  simpa using filled

theorem le_length_join (dir : Path) :
    dir.length + name.length ≤ (join dir name).length := by
  rw [join, isName.isAbsolute, Bool.false_or]
  split
  · next nothing =>
      have empty : dir = [] := by simpa using nothing
      rw [empty]
      simp
  · split <;> simp only [List.length_append, List.length_cons] <;> omega

/-- A joined path has no byte but those of its parts and the separator. -/
theorem mem_join {dir : Path} {byte : UInt8} (here : byte ∈ join dir name) :
    byte ∈ dir ∨ byte = slash ∨ byte ∈ name := by
  rcases join_cases isName dir with ⟨-, same⟩ | ⟨front, spelled, dirSpelled⟩
  · exact .inr (.inr (same ▸ here))
  · rw [spelled, List.mem_append, List.mem_cons] at here
    refine here.imp (fun front => ?_) id
    rcases dirSpelled with slash | ⟨plain, -⟩
    · rw [slash]
      exact List.mem_append_left _ front
    · rw [plain]
      exact front

end Join

end Path

namespace FileTree

/-! ## Directories on the way -/

theorem enter_append (tree : FileTree) (here : Address) (names more : List Path) :
    tree.enter here (names ++ more) = (tree.enter here names).bind (tree.enter · more) := by
  induction names generalizing here with
  | nil => rfl
  | cons name names ih =>
      rw [List.cons_append, enter, enter]
      cases tree.descend here name with
      | error cause => rfl
      | ok there => exact ih there

/-- The directories of a tree are directories of another one as well, and relative
paths start in the same one. -/
structure SameWays (before after : FileTree) : Prop where
  current : after.current = before.current
  directory : ∀ address, before.get? address = some .directory →
    after.get? address = some .directory

namespace SameWays

variable {before after : FileTree} (ways : SameWays before after)
include ways

theorem start (path : Path) : after.start path = before.start path := by
  rw [FileTree.start, FileTree.start, ways.current]

theorem descend {here there : Address} {name : Path}
    (descended : before.descend here name = .ok there) :
    after.descend here name = .ok there := by
  rw [FileTree.descend] at descended ⊢
  split
  · next stays => rw [if_pos stays] at descended; exact descended
  · next moves =>
      rw [if_neg moves] at descended
      split
      · next up => rw [if_pos up] at descended; exact descended
      · next down =>
          rw [if_neg down] at descended
          split
          · next long => rw [if_pos long] at descended; cases descended
          · next short =>
              rw [if_neg short] at descended
              split at descended
              · cases descended
              · cases descended
              · next directory =>
                  rw [ways.directory _ directory]
                  exact descended

/-- A way through directories remains. -/
theorem enter {here there : Address} {names : List Path}
    (entered : before.enter here names = .ok there) : after.enter here names = .ok there := by
  induction names generalizing here with
  | nil => exact entered
  | cons name names ih =>
      obtain ⟨next, descended, entered⟩ := Except.bind_eq_ok_iff.1 entered
      exact Except.bind_eq_ok_iff.2 ⟨next, ways.descend descended, ih entered⟩

end SameWays

/-- A file put where no directory was is on no way that led through directories. -/
theorem sameWays_put {tree : FileTree} {address : Address} (below : address ≠ [])
    (free : tree.get? address ≠ some .directory) (entry : Entry) :
    SameWays tree (tree.put address entry) where
  current := rfl
  directory other directory := by
    have apart : other ≠ address := by
      rintro rfl
      exact free directory
    rw [get?_put tree below, if_neg apart]
    exact directory

theorem descend_of_placeIn {tree : FileTree} {near here : Address} {name : Path}
    (found : tree.placeIn near name = .ok (.directory here)) :
    tree.enter near [name] = .ok here := by
  have entered : tree.enter near [name] = tree.descend near name := by
    rw [enter]
    cases tree.descend near name <;> rfl
  rw [entered]
  rw [placeIn] at found
  split at found
  · obtain ⟨there, descended, ⟨⟩⟩ := Except.bind_eq_ok_iff.1 found
    exact descended
  · next plain =>
      rw [not_or] at plain
      rw [descend, if_neg plain.1, if_neg plain.2]
      split at found
      · cases found
      · next short =>
          rw [if_neg short]
          split at found
          · cases found
          · next directory =>
              cases found
              rw [directory]
          · cases found

/-- A path that leads to a directory is followed through all its pieces. -/
theorem enter_of_locate {tree : FileTree} {path : Path} {here : Address}
    (found : tree.locate path = .ok (.directory here)) :
    0 ∉ path ∧ tree.enter (tree.start path) (Path.components path) = .ok here := by
  obtain ⟨⟨near, name⟩, approached, ended⟩ := Except.bind_eq_ok_iff.1 found
  rw [approach] at approached
  split at approached
  · cases approached
  · next plain =>
      refine ⟨by simpa using plain, ?_⟩
      split at approached
      · cases approached
      · split at approached
        · cases approached
        · obtain ⟨_, entered, ⟨⟩⟩ := Except.bind_eq_ok_iff.1 approached
          cases last : (Path.components path).getLast? with
          | none =>
              rw [last] at ended
              cases ended
              rw [List.getLast?_eq_none_iff.1 last] at entered ⊢
              exact entered
          | some name =>
              rw [last] at ended
              obtain ⟨front, pieces⟩ := List.getLast?_eq_some_iff.1 last
              rw [pieces, List.dropLast_concat] at entered
              rw [pieces, enter_append, entered]
              exact descend_of_placeIn ended

/-! ## Slots -/

/-- The place of an address that holds an entry or nothing. -/
def Place.ofEntry (address : Address) : Option Entry → Place
  | none => .vacant address
  | some .directory => .directory address
  | some (.file content) => .file address content

theorem Place.ofEntry_eq_file {address other : Address} {entry : Option Entry}
    {content : ByteArray} (same : Place.ofEntry address entry = .file other content) :
    address = other ∧ entry = some (.file content) := by
  cases entry with
  | none => cases same
  | some entry =>
      cases entry with
      | directory => cases same
      | file held =>
          cases same
          exact ⟨rfl, rfl⟩

/-- The address of a name in a directory, whatever it holds. -/
def slot (tree : FileTree) (dir name : Path) : Except IoError Address :=
  if (Path.join dir name).contains 0 then .error .nulInPath
  else if pathLimit < (Path.join dir name).length then .error .nameTooLong
  else do
    let here ← tree.enter (tree.start dir) (Path.components dir)
    if nameLimit < name.length then .error .nameTooLong else return here ++ [name]

section Slots

variable {tree : FileTree} {dir name : Path}

/-- The slot of a name is the name below the directory. -/
theorem slot_eq_ok {address : Address} (found : tree.slot dir name = .ok address) :
    ∃ here, tree.enter (tree.start dir) (Path.components dir) = .ok here ∧
      address = here ++ [name] := by
  rw [slot] at found
  split at found
  · cases found
  · split at found
    · cases found
    · obtain ⟨here, entered, named⟩ := Except.bind_eq_ok_iff.1 found
      split at named
      · cases named
      · cases named
        exact ⟨here, entered, rfl⟩

theorem slot_ne_nil {address : Address} (found : tree.slot dir name = .ok address) :
    address ≠ [] := by
  obtain ⟨here, -, rfl⟩ := slot_eq_ok found
  simp

/-- Different names have different slots. -/
theorem slot_inj {other : Path} {address : Address} (found : tree.slot dir name = .ok address)
    (shared : tree.slot dir other = .ok address) : name = other := by
  obtain ⟨here, -, rfl⟩ := slot_eq_ok found
  obtain ⟨there, -, same⟩ := slot_eq_ok shared
  exact (List.append_inj' same rfl).2 |> List.singleton_inj.1

theorem slot_put {other : Path} {address : Address} (found : tree.slot dir other = .ok address)
    (free : tree.get? address ≠ some .directory) (entry : Entry) :
    (tree.put address entry).slot dir name = tree.slot dir name := by
  obtain ⟨here, entered, -⟩ := slot_eq_ok found
  have still := (sameWays_put (slot_ne_nil found) free entry).enter entered
  have begins : (tree.put address entry).start dir = tree.start dir := rfl
  rw [slot, slot, begins, still, entered]

variable (isName : Path.IsName name)
include isName

theorem approach_join :
    tree.approach (Path.join dir name) =
      if (Path.join dir name).contains 0 then .error .nulInPath
      else if pathLimit < (Path.join dir name).length then .error .nameTooLong
      else (tree.enter (tree.start dir) (Path.components dir)).map (·, some name) := by
  have begins : tree.start (Path.join dir name) = tree.start dir := by
    rw [start, start, Path.isAbsolute_join isName]
  rw [approach, Path.isEmpty_join isName, begins, Path.components_join isName]
  simp only [List.dropLast_concat, List.getLast?_concat, Bool.false_eq_true, if_false]
  split
  · rfl
  · split
    · rfl
    · cases tree.enter (tree.start dir) (Path.components dir) <;> rfl

theorem placeIn_name (here : Address) :
    tree.placeIn here name =
      if nameLimit < name.length then .error .nameTooLong
      else .ok (Place.ofEntry (here ++ [name]) (tree.get? (here ++ [name]))) := by
  rw [placeIn, if_neg (not_or.2 ⟨isName.notHere, isName.notUp⟩)]
  cases tree.get? (here ++ [name]) with
  | none => rfl
  | some entry => cases entry <;> rfl

/-- **Following a joined path** leads to the slot of the name. -/
theorem locate_join :
    tree.locate (Path.join dir name) =
      (tree.slot dir name).map fun address => Place.ofEntry address (tree.get? address) := by
  rw [locate, approach_join isName, slot]
  split
  · rfl
  · split
    · rfl
    · cases tree.enter (tree.start dir) (Path.components dir) with
      | error cause => rfl
      | ok here =>
          change tree.placeIn here name = _
          rw [placeIn_name isName]
          simp only [bind, Except.bind]
          split <;> rfl

theorem readBytes_join :
    tree.readBytes (Path.join dir name) = (tree.slot dir name).bind fun address =>
      match tree.get? address with
      | none => .error .notFound
      | some .directory => .error .isDirectory
      | some (.file content) => .ok content := by
  rw [readBytes, locate_join isName, Path.endsInSlash_join isName]
  cases tree.slot dir name with
  | error cause => rfl
  | ok address =>
      simp only [Except.bind, Except.map, bind]
      rcases tree.get? address with _ | _ | _ <;> simp [Place.ofEntry, pure, Except.pure]

theorem target_join :
    tree.target (Path.join dir name) = (tree.slot dir name).bind fun address =>
      if tree.get? address = some .directory then .error .isDirectory else .ok address := by
  rw [target, approach_join isName, slot]
  split
  · rfl
  · split
    · rfl
    · cases tree.enter (tree.start dir) (Path.components dir) with
      | error cause => rfl
      | ok here =>
          simp only [Except.map, bind, Except.bind, Path.endsInSlash_join isName,
            Bool.false_eq_true, if_false, placeIn_name isName]
          by_cases long : nameLimit < name.length
          · rw [if_pos long, if_pos long]
          · rw [if_neg long, if_neg long]
            simp only [pure, Except.pure]
            cases tree.get? (here ++ [name]) with
            | none => rfl
            | some entry => cases entry <;> rfl

theorem target_eq_ok_iff {address : Address} :
    tree.target (Path.join dir name) = .ok address ↔
      tree.slot dir name = .ok address ∧ tree.get? address ≠ some .directory := by
  rw [target_join isName]
  constructor
  · intro found
    obtain ⟨here, slot, found⟩ := Except.bind_eq_ok_iff.1 found
    split at found
    · cases found
    · next free =>
        cases found
        exact ⟨slot, free⟩
  · rintro ⟨slot, free⟩
    rw [slot]
    exact if_neg free

section Put

variable {other : Path} (isOther : Path.IsName other) {address : Address}
  (found : tree.target (Path.join dir other) = .ok address) (content : ByteArray)
include isOther found

/-- **Names in one directory are read independently.** -/
theorem readBytes_put :
    (tree.put address (.file content)).readBytes (Path.join dir name) =
      if name = other then .ok content else tree.readBytes (Path.join dir name) := by
  obtain ⟨slot, free⟩ := (target_eq_ok_iff isOther).1 found
  rw [readBytes_join isName, readBytes_join isName, slot_put slot free]
  split
  · next same =>
      subst same
      rw [slot, Except.bind, get?_put tree (slot_ne_nil slot), if_pos rfl]
  · next apart =>
      cases here : tree.slot dir name with
      | error cause => rfl
      | ok mine =>
          have different : mine ≠ address := by
            rintro rfl
            exact apart (slot_inj here slot)
          rw [Except.bind, get?_put tree (slot_ne_nil slot), if_neg different]
          rfl

/-- A file in a slot does not change where a path is written. -/
theorem target_put :
    (tree.put address (.file content)).target (Path.join dir name) =
      tree.target (Path.join dir name) := by
  obtain ⟨slot, free⟩ := (target_eq_ok_iff isOther).1 found
  rw [target_join isName, target_join isName, slot_put slot free]
  cases here : tree.slot dir name with
  | error cause => rfl
  | ok mine =>
      rw [Except.bind, Except.bind, get?_put tree (slot_ne_nil slot)]
      by_cases same : mine = address
      · rw [if_pos same, if_neg nofun, same, if_neg free]
      · rw [if_neg same]

end Put

end Slots

end FileTree

end RunExchange
