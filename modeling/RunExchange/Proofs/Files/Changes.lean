import Mathlib.Tactic
import RunExchange.Proofs.Files.Following
import RunExchange.Proofs.Sequence
/-!
# Proofs.Files.Changes -- what a change to a tree leaves alone

A write changes one address at most, the target of its path, and that is never a
directory (`frame_of_write`).  This holds of any path, however it is spelled.

A file that was read is still read after a change elsewhere: its path led through
directories, and they are still there (`SameWays.readText`).
-/

namespace RunExchange.FileTree

set_option autoImplicit false

/-- Two trees differ at most at some addresses. -/
structure Frame (changed : Address → Prop) (before after : FileTree) : Prop where
  current : after.current = before.current
  entries : ∀ address, ¬ changed address → after.get? address = before.get? address

theorem Frame.refl (changed : Address → Prop) (tree : FileTree) : Frame changed tree tree :=
  ⟨rfl, fun _ _ => rfl⟩

theorem Frame.mono {changed more : Address → Prop} {before after : FileTree}
    (frame : Frame changed before after) (wider : ∀ address, changed address → more address) :
    Frame more before after where
  current := frame.current
  entries address apart := frame.entries address (mt (wider address) apart)

/-- If no directory is changed, all ways remain. -/
theorem Frame.sameWays {changed : Address → Prop} {before after : FileTree}
    (frame : Frame changed before after)
    (free : ∀ address, changed address → before.get? address ≠ some .directory) :
    SameWays before after where
  current := frame.current
  directory address directory := by
    rw [frame.entries address fun here => free address here directory]
    exact directory

/-! ## Places -/

theorem placeIn_of_dots {tree : FileTree} {near : Address} {name : Path} {place : Place}
    (dots : name = "." ∨ name = "..") (found : tree.placeIn near name = .ok place) :
    ∃ here, place = .directory here := by
  rw [placeIn, if_pos dots] at found
  obtain ⟨here, -, ⟨⟩⟩ := Except.bind_eq_ok_iff.1 found
  exact ⟨here, rfl⟩

/-- A place that is no directory has the entry of the name below the directory. -/
theorem placeIn_cases {tree : FileTree} {near : Address} {name : Path} {place : Place}
    (found : tree.placeIn near name = .ok place) :
    (∃ here, place = .directory here) ∨
      ¬ (name = "." ∨ name = "..") ∧ ¬ nameLimit < name.length ∧
        place = .ofEntry (near ++ [name]) (tree.get? (near ++ [name])) := by
  by_cases dots : name = "." ∨ name = ".."
  · exact .inl (placeIn_of_dots dots found)
  · rw [placeIn, if_neg dots] at found
    split at found
    · cases found
    · next short =>
        refine .inr ⟨dots, short, ?_⟩
        split at found
        all_goals
          next held =>
            cases found
            rw [held]
            rfl

theorem get?_of_placeIn_file {tree : FileTree} {near address : Address} {name : Path}
    {content : ByteArray} (found : tree.placeIn near name = .ok (.file address content)) :
    tree.get? address = some (.file content) := by
  obtain ⟨here, ⟨⟩⟩ | ⟨-, -, same⟩ := placeIn_cases found
  obtain ⟨rfl, held⟩ := Place.ofEntry_eq_file same.symm
  exact held

theorem placeIn_of_held {before after : FileTree} {near address : Address} {name : Path}
    {content : ByteArray} (found : before.placeIn near name = .ok (.file address content))
    (held : after.get? address = before.get? address) :
    after.placeIn near name = .ok (.file address content) := by
  have there := get?_of_placeIn_file found
  obtain ⟨here, ⟨⟩⟩ | ⟨plain, short, same⟩ := placeIn_cases found
  obtain ⟨rfl, -⟩ := Place.ofEntry_eq_file same.symm
  rw [placeIn, if_neg plain, if_neg short, held, there]

/-! ## Reading after a change -/

namespace SameWays

variable {before after : FileTree} (ways : SameWays before after)
include ways

theorem approach {path : Path} {near : Address × Option Path}
    (approached : before.approach path = .ok near) : after.approach path = .ok near := by
  rw [FileTree.approach] at approached ⊢
  split
  · next nul => rw [if_pos nul] at approached; cases approached
  · next plain =>
      rw [if_neg plain] at approached
      split
      · next nothing => rw [if_pos nothing] at approached; cases approached
      · next something =>
          rw [if_neg something] at approached
          split
          · next long => rw [if_pos long] at approached; cases approached
          · next short =>
              rw [if_neg short] at approached
              obtain ⟨here, entered, last⟩ := Except.bind_eq_ok_iff.1 approached
              rw [ways.start]
              exact Except.bind_eq_ok_iff.2 ⟨here, ways.enter entered, last⟩

/-- A file is where it was, unless it was changed itself. -/
theorem locate {path : Path} {address : Address} {content : ByteArray}
    (found : before.locate path = .ok (.file address content))
    (held : after.get? address = before.get? address) :
    after.locate path = .ok (.file address content) := by
  rw [FileTree.locate] at found ⊢
  obtain ⟨⟨near, name⟩, approached, placed⟩ := Except.bind_eq_ok_iff.1 found
  refine Except.bind_eq_ok_iff.2 ⟨_, ways.approach approached, ?_⟩
  cases name with
  | none => cases placed
  | some name => exact placeIn_of_held placed held

/-- **What was read is read again**, unless the file itself was changed. -/
theorem readText {path : Path} {text : String} (read : before.readText path = .ok text)
    (held : ∀ address content, before.locate path = .ok (.file address content) →
      after.get? address = before.get? address) : after.readText path = .ok text := by
  have bytes : ∀ content, before.readBytes path = .ok content →
      after.readBytes path = .ok content := by
    intro content found
    rw [readBytes] at found ⊢
    obtain ⟨place, located, content⟩ := Except.bind_eq_ok_iff.1 found
    cases place with
    | directory address => cases content
    | vacant address => cases content
    | file address _ =>
        have again := ways.locate located (held address _ located)
        exact Except.bind_eq_ok_iff.2 ⟨_, again, content⟩
  rw [FileTree.readText] at read ⊢
  obtain ⟨content, found, decoded⟩ := Except.bind_eq_ok_iff.1 read
  exact Except.bind_eq_ok_iff.2 ⟨content, bytes content found, decoded⟩

end SameWays

/-! ## Writing -/

/-- A write replaces what is below the top and is no directory. -/
theorem target_eq_ok {tree : FileTree} {path : Path} {address : Address}
    (found : tree.target path = .ok address) :
    address ≠ [] ∧ tree.get? address ≠ some .directory := by
  rw [target] at found
  obtain ⟨⟨near, name⟩, -, found⟩ := Except.bind_eq_ok_iff.1 found
  cases name with
  | none => cases found
  | some name =>
      dsimp only at found
      split at found
      · cases found
      · obtain ⟨place, placed, found⟩ := Except.bind_eq_ok_iff.1 found
        obtain ⟨here, rfl⟩ | ⟨-, -, rfl⟩ := placeIn_cases placed
        · cases found
        · cases held : tree.get? (near ++ [name]) with
          | none =>
              rw [held] at found
              cases found
              exact ⟨by simp, by simp [held]⟩
          | some entry =>
              rw [held] at found
              cases entry with
              | directory => cases found
              | file content =>
                  cases found
                  exact ⟨by simp, by simp [held]⟩

theorem write_eq_ok {tree written : FileTree} {path : Path} {text : String}
    (done : tree.write path text = .ok written) :
    ∃ address, tree.target path = .ok address ∧
      written = tree.put address (.file text.toUTF8) := by
  rw [write] at done
  obtain ⟨address, targeted, ⟨⟩⟩ := Except.bind_eq_ok_iff.1 done
  exact ⟨address, targeted, rfl⟩

/-- **A write changes the target of its path alone.** -/
theorem frame_of_write {tree written : FileTree} {path : Path} {text : String}
    (done : tree.write path text = .ok written) :
    Frame (fun address => tree.target path = .ok address) tree written := by
  obtain ⟨address, targeted, rfl⟩ := write_eq_ok done
  refine ⟨rfl, fun other apart => ?_⟩
  have elsewhere : other ≠ address := by
    rintro rfl
    exact apart targeted
  rw [get?_put tree (target_eq_ok targeted).1, if_neg elsewhere]

end RunExchange.FileTree
