import Mathlib.Tactic
import RunExchange.Proofs.Config.Validity
import RunExchange.Proofs.Files.Following
import RunExchange.Proofs.Store.Keeping
import RunExchange.Proofs.Text.Cut
/-!
# Proofs.Store.Directory -- the files of a valid layout

The nine file names of a valid layout are different and plain, so a write to one
resource leaves the other eight as they are, however the working directory is
spelled and whatever else lies in the tree (`DirectoryStore.keeping`).  The same
holds when a file is replaced by bytes that are no text (`read_overwrite`).
-/

namespace RunExchange

set_option autoImplicit false

theorem Layout.PlainName.isName {name : String} (plain : PlainName name) :
    Path.IsName (Text.utf8 name) where
  notEmpty := by
    intro nothing
    rw [Text.utf8_eq_nil_iff] at nothing
    subst nothing
    exact absurd plain.1 (by decide)
  undivided := mt (Text.mem_utf8_iff (c := '/') (by decide)).1 plain.2.1
  notHere := fun here => plain.2.2.2.1 (Text.utf8_inj here)
  notUp := fun up => plain.2.2.2.2 (Text.utf8_inj up)

namespace DirectoryStore

/-- The bytes in the file of a resource. -/
def bytes (store : DirectoryStore) (resource : Resource) : Except IoError ByteArray :=
  store.tree.readBytes (store.layout.path resource)

/-- Replace the file of a resource by any bytes. -/
def overwrite (store : DirectoryStore) (resource : Resource) (content : ByteArray) :
    Except IoError DirectoryStore := do
  let address ← store.tree.target (store.layout.path resource)
  return { store with tree := store.tree.put address (.file content) }

/-- The text of a file. -/
def textOf (content : ByteArray) : Except IoError String :=
  match String.fromUTF8? content with
  | none => .error .notUtf8
  | some text => .ok text

theorem textOf_toUTF8 (text : String) : textOf text.toUTF8 = .ok text := by
  rw [textOf, Text.fromUTF8?_toUTF8]

theorem read_eq (store : DirectoryStore) (resource : Resource) :
    Store.read store resource = (store.bytes resource).bind textOf := by
  change store.tree.readText (store.layout.path resource) = _
  rw [FileTree.readText, bytes]
  cases store.tree.readBytes (store.layout.path resource) <;> rfl

theorem overwrite_eq_ok {store written : DirectoryStore} {resource : Resource}
    {content : ByteArray} (done : store.overwrite resource content = .ok written) :
    ∃ address, store.tree.target (store.layout.path resource) = .ok address ∧
      written = { store with tree := store.tree.put address (.file content) } := by
  obtain ⟨address, target, ⟨⟩⟩ := Except.bind_eq_ok_iff.1 done
  exact ⟨address, target, rfl⟩

/-- Writing a text is overwriting with its bytes. -/
theorem write_eq (store : DirectoryStore) (resource : Resource) (text : String) :
    Store.write store resource text = store.overwrite resource text.toUTF8 := by
  change (do
    let tree ← store.tree.write (store.layout.path resource) text
    return { store with tree } : Except IoError DirectoryStore) = _
  rw [FileTree.write, overwrite]
  cases store.tree.target (store.layout.path resource) <;> rfl

section Valid

variable {store written : DirectoryStore} {resource : Resource} {content : ByteArray}
  (valid : store.layout.Valid)
include valid

/-- **Overwriting a file leaves the files of the other resources alone.** -/
theorem bytes_overwrite (done : store.overwrite resource content = .ok written) :
    written.layout = store.layout ∧
      written.bytes = Function.update store.bytes resource (.ok content) := by
  obtain ⟨address, target, rfl⟩ := overwrite_eq_ok done
  refine ⟨rfl, ?_⟩
  funext other
  have apart := FileTree.readBytes_put (valid.1 other).isName (valid.1 resource).isName target
    content
  rw [Function.update_apply]
  refine apart.trans ?_
  by_cases same : other = resource
  · rw [if_pos same,
      if_pos (congrArg (fun resource => Text.utf8 (store.layout.fileName resource)) same)]
  · rw [if_neg same, if_neg fun shared => same (valid.2 _ _ (Text.utf8_inj shared))]
    rfl

/-- So it changes what is read of its resource only. -/
theorem read_overwrite (done : store.overwrite resource content = .ok written) :
    written.layout = store.layout ∧
      Store.read written = Function.update (Store.read store) resource (textOf content) := by
  obtain ⟨layout, left⟩ := bytes_overwrite valid done
  refine ⟨layout, ?_⟩
  funext other
  rw [read_eq, left]
  by_cases same : other = resource
  · subst same
    rw [Function.update_self, Function.update_self]
    rfl
  · rw [Function.update_of_ne same, Function.update_of_ne same]
    exact (read_eq store other).symm

/-- A text that is read is in the file that a write would replace. -/
theorem exists_target_of_read {text : String} (read : Store.read store resource = .ok text) :
    ∃ address, store.tree.target (store.layout.path resource) = .ok address ∧
      store.tree.get? address = some (.file text.toUTF8) := by
  have isName := (valid.1 resource).isName
  rw [read_eq, bytes, Layout.path, FileTree.readBytes_join isName] at read
  obtain ⟨content, found, isText⟩ := Except.bind_eq_ok_iff.1 read
  obtain ⟨address, slot, found⟩ := Except.bind_eq_ok_iff.1 found
  cases held : store.tree.get? address with
  | none =>
      rw [held] at found
      cases found
  | some entry =>
      rw [held] at found
      cases entry with
      | directory => cases found
      | file content =>
          cases found
          rw [textOf] at isText
          split at isText
          · cases isText
          · next valid =>
              cases isText
              have free : store.tree.get? address ≠ some .directory := by simp [held]
              refine ⟨address, (FileTree.target_eq_ok_iff isName).2 ⟨slot, free⟩, ?_⟩
              rw [held, Text.toUTF8_of_fromUTF8? valid]

/-- A file that can be read can be overwritten. -/
theorem exists_overwrite {text : String} (read : Store.read store resource = .ok text)
    (content : ByteArray) : ∃ written, store.overwrite resource content = .ok written := by
  obtain ⟨address, target, -⟩ := exists_target_of_read valid read
  exact ⟨_, Except.bind_eq_ok_iff.2 ⟨address, target, rfl⟩⟩

end Valid

/-- **A directory store with a valid layout keeps what is written to it.** -/
theorem keeping : Store.Keeping DirectoryStore fun store => store.layout.Valid where
  write := by
    intro store written resource text valid done
    rw [write_eq] at done
    obtain ⟨same, read⟩ := read_overwrite valid done
    rw [textOf_toUTF8] at read
    exact ⟨same ▸ valid, read⟩

end DirectoryStore

end RunExchange
