import Mathlib.Tactic
import RunExchange.Proofs.Store.Directory
/-!
# Proofs.Store.Separation -- the files of a valid layout are apart

A plain name joined to a directory is a child of the directory: the directory as
it is spelled, a separator where one is missing, and the name as one further
component (`isChild_join`).  Joining has other cases -- an absolute name would
replace the directory, and `..` would leave it -- and a valid layout excludes
them.

So the nine paths of a valid layout are different children of its working
directory, however that is spelled, and in any tree they lead to different
entries of one directory.  A write to one resource leaves what is read of the
others as it was (`valid_layout_is_separate`).
-/

namespace RunExchange

set_option autoImplicit false

/-! ## Children of a directory -/

namespace Path

/-- What stands between a directory and a name in it. -/
def separator (dir : Path) : Path :=
  if dir.isEmpty || endsInSlash dir then [] else [slash]

/-- The path is the directory with one further component, the name. -/
structure IsChild (dir name path : Path) : Prop where
  spelled : path = dir ++ separator dir ++ name
  isAbsolute : isAbsolute path = isAbsolute dir
  components : components path = components dir ++ [name]
  /-- No component of the directory is lost when `.` does not count. -/
  essentials : essentials path = essentials dir ++ [name]

section Join

variable {name : Path} (isName : IsName name)
include isName

theorem join_eq (dir : Path) : join dir name = dir ++ separator dir ++ name := by
  rw [join, separator, isName.isAbsolute, Bool.false_or]
  cases nothing : dir.isEmpty with
  | true =>
      have empty : dir = [] := by simpa using nothing
      rw [empty]
      rfl
  | false =>
      cases endsInSlash dir with
      | true => exact congrArg (· ++ name) (List.append_nil dir).symm
      | false => exact (List.append_assoc dir [slash] name).symm

theorem essentials_join (dir : Path) : essentials (join dir name) = essentials dir ++ [name] := by
  rw [essentials, components_join isName, isAbsolute_join isName, essentials]
  cases components dir with
  | nil => exact if_neg fun here => isName.notHere here.1
  | cons first rest =>
      have kept : (rest ++ [name]).filter (· ≠ Text.utf8 ".") =
          rest.filter (· ≠ Text.utf8 ".") ++ [name] := by
        simp [isName.notHere]
      rw [List.cons_append]
      dsimp only
      rw [kept]
      split <;> rfl

/-- **A plain name joined to a directory is a child of it.** -/
theorem isChild_join (dir : Path) : IsChild dir name (join dir name) where
  spelled := join_eq isName dir
  isAbsolute := isAbsolute_join isName dir
  components := components_join isName dir
  essentials := essentials_join isName dir

end Join

/-- Children of one directory that are spelled alike have one name. -/
theorem IsChild.name_eq_of_alike {dir first second a b : Path} (child : IsChild dir first a)
    (other : IsChild dir second b) (alike : Alike a b) : first = second := by
  have same := alike.2
  rw [child.essentials, other.essentials] at same
  exact List.singleton_inj.1 (List.append_cancel_left same)

end Path

/-! ## The files of a layout -/

namespace Layout

/-- In the tree, the path of a resource leads to the entry of its name directly in
the directory to which the working directory leads, for reading as for writing. -/
structure StaysIn (layout : Layout) (tree : FileTree) : Prop where
  located : ∀ resource place, tree.locate (layout.path resource) = .ok place →
    ∃ here, tree.enter (tree.start layout.workingDir) (Path.components layout.workingDir) =
        .ok here ∧
      place = .ofEntry (here ++ [(layout.fileName resource : Path)])
        (tree.get? (here ++ [(layout.fileName resource : Path)]))
  placed : ∀ resource address, tree.target (layout.path resource) = .ok address →
    ∃ here, tree.enter (tree.start layout.workingDir) (Path.components layout.workingDir) =
        .ok here ∧
      address = here ++ [(layout.fileName resource : Path)]

section Valid

variable {layout : Layout} (valid : layout.Valid)
include valid

theorem Valid.isChild (resource : Resource) :
    Path.IsChild layout.workingDir (layout.fileName resource) (layout.path resource) :=
  Path.isChild_join (valid.1 resource).isName layout.workingDir

theorem Valid.not_alike {a b : Resource} (apart : a ≠ b) :
    ¬ Path.Alike (layout.path a) (layout.path b) := by
  intro alike
  have named := (valid.isChild a).name_eq_of_alike (valid.isChild b) alike
  exact apart (valid.2 a b (Text.utf8_inj named))

theorem Valid.staysIn (tree : FileTree) : layout.StaysIn tree where
  located := by
    intro resource place found
    rw [path, FileTree.locate_join (valid.1 resource).isName] at found
    cases slot : tree.slot layout.workingDir (layout.fileName resource) with
    | error cause =>
        rw [slot] at found
        cases found
    | ok address =>
        rw [slot] at found
        cases found
        obtain ⟨here, entered, rfl⟩ := FileTree.slot_eq_ok slot
        exact ⟨here, entered, rfl⟩
  placed := by
    intro resource address found
    obtain ⟨slot, -⟩ := (FileTree.target_eq_ok_iff (valid.1 resource).isName).1 found
    exact FileTree.slot_eq_ok slot

/-- Whether it succeeds or not, a write to one resource leaves what is read of the
others. -/
theorem Valid.read_put (tree : FileTree) {a b : Resource} (apart : a ≠ b) (text : String) :
    Store.read (Store.put a text (⟨layout, tree⟩ : DirectoryStore)).state b =
      Store.read (⟨layout, tree⟩ : DirectoryStore) b := by
  rw [Store.put]
  cases done : Store.write (⟨layout, tree⟩ : DirectoryStore) a text with
  | error cause => rfl
  | ok written =>
      obtain ⟨-, read⟩ := DirectoryStore.keeping.write valid done
      dsimp only
      rw [read, Function.update_of_ne apart.symm]

end Valid

/-- **A valid layout never aliases and never escapes.**  Whatever the working
directory is, the path of each resource is a child of it under the name of the
resource, no two of the paths are spelled alike, and in any tree they lead into
the working directory and not to each other's files. -/
theorem valid_layout_is_separate {layout : Layout} (passed : layout.validate = .ok ()) :
    (∀ resource,
      Path.IsChild layout.workingDir (layout.fileName resource) (layout.path resource)) ∧
      (∀ a b, a ≠ b →
        layout.path a ≠ layout.path b ∧ ¬ Path.Alike (layout.path a) (layout.path b)) ∧
      ∀ tree : FileTree, layout.StaysIn tree ∧ ∀ a b text, a ≠ b →
        Store.read (Store.put a text (⟨layout, tree⟩ : DirectoryStore)).state b =
          Store.read (⟨layout, tree⟩ : DirectoryStore) b := by
  have valid := (validate_eq_ok_iff layout).1 passed
  refine ⟨valid.isChild, fun a b apart => ?_, fun tree => ?_⟩
  · have unlike := valid.not_alike apart
    exact ⟨fun same => unlike (same ▸ Path.Alike.refl _), unlike⟩
  · exact ⟨valid.staysIn tree, fun a b text apart => valid.read_put tree apart text⟩

/-- The default names in a directory that is spelled with a separator at its end
and one that goes up again. -/
theorem default_names_are_separate :
    let layout := inDir "runs/../"
    layout.validate = .ok () ∧
      layout.path .runNumber =
        Text.utf8 "runs/../" ++ Path.separator "runs/../" ++ Text.utf8 "pythonRunNumber.rcen" ∧
      ¬ Path.Alike (layout.path .runNumber) (layout.path .stateOutput) ∧
      Store.read (Store.put .stateOutput "" (⟨layout, .empty⟩ : DirectoryStore)).state .runNumber =
        Store.read (⟨layout, .empty⟩ : DirectoryStore) .runNumber := by
  intro layout
  have passed : layout.validate = .ok () := by decide
  obtain ⟨children, apart, inTree⟩ := valid_layout_is_separate passed
  exact ⟨passed, (children .runNumber).spelled, (apart .runNumber .stateOutput nofun).2,
    (inTree .empty).2 .stateOutput .runNumber "" nofun⟩

end Layout

end RunExchange
