import Mathlib.Tactic
import RunExchange.Proofs.Store.Agreement
import RunExchange.Proofs.Store.Directory
/-!
# Proofs.Store.Refinement -- a directory does what a map does

A directory store with a valid layout answers every call as the store in memory
that holds the texts of its files, and touches nothing but its nine files
(`directory_refines_memory`).  The nine paths lead to nine different slots of the
working directory, and a slot that holds a file or nothing stays where it is
while files come and go in the others.

The paths have to be short enough to be followed.  A working directory may be
spelled so long that it can be entered but no file in it can be named; then
reading says so, and not that the file is missing
(`not_refines_beyond_path_limit`).
-/

namespace RunExchange

set_option autoImplicit false

/-! ## Mirrors -/

/-- The slots of a layout hold the texts of a store in memory, and every other
address holds what it held in the tree `origin`. -/
structure Mirrors (layout : Layout) (slot : Resource → Address) (origin : FileTree)
    (directory : DirectoryStore) (memory : MemoryStore) : Prop where
  arranged : directory.layout = layout
  slots : ∀ resource,
    directory.tree.slot layout.workingDir (layout.fileName resource) = .ok (slot resource)
  texts : ∀ resource,
    directory.tree.get? (slot resource) = (memory.text resource).map fun text => .file text.toUTF8
  others : ∀ address, (∀ resource, address ≠ slot resource) →
    directory.tree.get? address = origin.get? address

section Mirrors

variable {layout : Layout} {slot : Resource → Address} {origin : FileTree}
  {directory : DirectoryStore} {memory : MemoryStore}
  (mirrors : Mirrors layout slot origin directory memory)
include mirrors

namespace Mirrors

/-- What a directory store reads. -/
theorem read_eq (valid : layout.Valid) (resource : Resource) :
    Store.read directory resource =
      match memory.text resource with
      | some text => .ok text
      | none => .error .notFound := by
  rw [DirectoryStore.read_eq, DirectoryStore.bytes, mirrors.arranged, Layout.path,
    FileTree.readBytes_join (valid.1 resource).isName, mirrors.slots, Except.bind,
    mirrors.texts]
  cases memory.text resource with
  | none => rfl
  | some text => exact DirectoryStore.textOf_toUTF8 text

theorem free (resource : Resource) :
    directory.tree.get? (slot resource) ≠ some .directory := by
  rw [mirrors.texts]
  cases memory.text resource <;> simp

theorem slot_inj (valid : layout.Valid) {a b : Resource} (same : slot a = slot b) : a = b := by
  apply valid.2
  exact Text.utf8_inj (FileTree.slot_inj (mirrors.slots a) (same ▸ mirrors.slots b))

/-- A file that is written takes the place of a text in memory. -/
theorem write (valid : layout.Valid) (resource : Resource) (text : String) :
    ∃ written, Store.write directory resource text = .ok written ∧
      Mirrors layout slot origin written (memory.set resource text) := by
  have target : directory.tree.target (directory.layout.path resource) = .ok (slot resource) := by
    rw [mirrors.arranged, Layout.path]
    exact (FileTree.target_eq_ok_iff (valid.1 resource).isName).2
      ⟨mirrors.slots resource, mirrors.free resource⟩
  have below := FileTree.slot_ne_nil (mirrors.slots resource)
  refine ⟨{ directory with tree := directory.tree.put (slot resource) (.file text.toUTF8) }, ?_, ?_⟩
  · rw [DirectoryStore.write_eq, DirectoryStore.overwrite, target]
    rfl
  · refine ⟨mirrors.arranged, fun other => ?_, fun other => ?_, fun address apart => ?_⟩
    · exact (FileTree.slot_put (mirrors.slots resource) (mirrors.free resource) _).trans
        (mirrors.slots other)
    · change (directory.tree.put _ _).get? _ = _
      rw [FileTree.get?_put _ below, MemoryStore.set]
      by_cases same : other = resource
      · rw [if_pos (congrArg slot same)]
        simp [same]
      · rw [if_neg fun shared => same (mirrors.slot_inj valid shared), mirrors.texts]
        simp [same]
    · change (directory.tree.put _ _).get? _ = _
      rw [FileTree.get?_put _ below, if_neg (apart resource)]
      exact mirrors.others address apart

end Mirrors

end Mirrors

/-- Stores that mirror each other agree step by step. -/
theorem Mirrors.simulation {layout : Layout} (valid : layout.Valid) (slot : Resource → Address)
    (origin : FileTree) : Store.Simulation (Mirrors layout slot origin) where
  read := by
    intro directory memory resource mirrors
    rw [mirrors.read_eq valid]
    cases held : memory.text resource with
    | none =>
        have absent : Store.read memory resource = .error .absent := by
          simp only [Store.read, held]
        rw [absent]
        exact .notFound resource .notFound .absent rfl rfl
    | some text =>
        have present : Store.read memory resource = .ok text := by
          simp only [Store.read, held]
        rw [present]
        exact .same _
  write := by
    intro directory memory resource text mirrors
    obtain ⟨written, done, still⟩ := mirrors.write valid resource text
    exact ⟨written, memory.set resource text, done, rfl, still⟩

/-! ## A directory and a map with the same texts -/

/-- The layout passes its check, its file names can stand in a directory, the
working directory is there, and the files at the nine paths, none of them a
directory, hold the texts of the store in memory. -/
structure Comparable (layout : Layout) (tree : FileTree) (memory : MemoryStore) : Prop where
  passed : layout.validate = .ok ()
  names : ∀ resource, (layout.fileName resource).utf8ByteSize ≤ 255 ∧
    '\x00' ∉ (layout.fileName resource).toList
  present : layout.workingDir = [] ∨
    ∃ here, tree.locate layout.workingDir = .ok (.directory here)
  free : ∀ resource address, tree.locate (layout.path resource) ≠ .ok (.directory address)
  held : ∀ resource content,
    (∃ address, tree.locate (layout.path resource) = .ok (.file address content)) ↔
      ∃ text, memory.text resource = some text ∧ text.toUTF8 = content

/-- After each call the answers are the same, the files read as the texts in
memory, and no other address of the tree has changed. -/
def Refines {α : Type} (layout : Layout) (tree : FileTree) (memory : MemoryStore)
    (calls : List (Call α)) : Prop :=
  List.Forall₂
    (fun left right =>
      SameAnswer left.1 right.1 ∧ left.2.layout = layout ∧
        (∀ resource, Store.read left.2 resource =
          match right.2.text resource with
          | some text => .ok text
          | none => .error .notFound) ∧
        ∀ address, (∀ resource, tree.target (layout.path resource) ≠ .ok address) →
          left.2.tree.get? address = tree.get? address)
    (Call.trace calls (⟨layout, tree⟩ : DirectoryStore)) (Call.trace calls memory)

section Comparable

variable {layout : Layout} {tree : FileTree} {memory : MemoryStore}
  (comparable : Comparable layout tree memory)
include comparable

/-- The working directory can be entered. -/
theorem Comparable.exists_here :
    ∃ here, 0 ∉ layout.workingDir ∧
      tree.enter (tree.start layout.workingDir) (Path.components layout.workingDir) = .ok here := by
  rcases comparable.present with empty | ⟨here, found⟩
  · refine ⟨tree.current, ?_⟩
    rw [empty]
    exact ⟨List.not_mem_nil, rfl⟩
  · exact ⟨here, FileTree.enter_of_locate found⟩

theorem Comparable.slot_eq {here : Address} (plain : 0 ∉ layout.workingDir)
    (entered : tree.enter (tree.start layout.workingDir)
      (Path.components layout.workingDir) = .ok here)
    (resource : Resource)
    (short : (Path.join layout.workingDir (layout.fileName resource)).length ≤
      FileTree.pathLimit) :
    tree.slot layout.workingDir (layout.fileName resource) =
      .ok (here ++ [(layout.fileName resource : Path)]) := by
  have isName := (((Layout.validate_eq_ok_iff _).1 comparable.passed).1 resource).isName
  obtain ⟨size, noNul⟩ := comparable.names resource
  have clean : ¬ (Path.join layout.workingDir (layout.fileName resource)).contains 0 = true := by
    rw [List.contains_iff_mem]
    intro nul
    rcases Path.mem_join isName nul with inDir | slash | inName
    · exact plain inDir
    · exact absurd slash (by decide)
    · exact noNul ((Text.mem_utf8_iff (c := '\x00') (by decide)).1 inName)
  rw [FileTree.slot, if_neg clean, if_neg (Nat.not_lt.2 short), entered]
  exact if_neg (Nat.not_lt.2 size)

/-- A tree and a map that are comparable mirror each other, if the paths are
short enough. -/
theorem Comparable.exists_mirrors
    (short : ∀ resource, (layout.path resource).length ≤ FileTree.pathLimit) :
    ∃ slot, Mirrors layout slot tree ⟨layout, tree⟩ memory ∧
      ∀ resource, tree.target (layout.path resource) = .ok (slot resource) := by
  have valid := (Layout.validate_eq_ok_iff _).1 comparable.passed
  obtain ⟨here, plain, entered⟩ := comparable.exists_here
  have slots := fun resource => comparable.slot_eq plain entered resource (short resource)
  have located (resource : Resource) : tree.locate (layout.path resource) =
      .ok (FileTree.Place.ofEntry (here ++ [(layout.fileName resource : Path)])
        (tree.get? (here ++ [(layout.fileName resource : Path)]))) := by
    rw [Layout.path, FileTree.locate_join (valid.1 resource).isName, slots]
    rfl
  have free (resource : Resource) :
      tree.get? (here ++ [(layout.fileName resource : Path)]) ≠ some .directory := by
    intro directory
    apply comparable.free resource (here ++ [(layout.fileName resource : Path)])
    rw [located, directory]
    rfl
  refine ⟨fun resource => here ++ [(layout.fileName resource : Path)],
    ⟨rfl, slots, ?_, fun _ _ => rfl⟩, ?_⟩
  · intro resource
    have held := comparable.held resource
    rw [located] at held
    cases inMemory : memory.text resource with
    | some text =>
        obtain ⟨address, same⟩ := (held text.toUTF8).2 ⟨text, inMemory, rfl⟩
        exact (FileTree.Place.ofEntry_eq_file (Except.ok.inj same)).2
    | none =>
        cases inTree : tree.get? (here ++ [(layout.fileName resource : Path)]) with
        | none => rfl
        | some entry =>
            cases entry with
            | directory => exact absurd inTree (free resource)
            | file content =>
                rw [inTree] at held
                obtain ⟨text, present, -⟩ := (held content).1 ⟨_, rfl⟩
                rw [present] at inMemory
                cases inMemory
  · intro resource
    rw [Layout.path]
    exact (FileTree.target_eq_ok_iff (valid.1 resource).isName).2 ⟨slots resource, free resource⟩

/-- **A directory does what a map does**, for any calls in any order. -/
theorem directory_refines_memory {α : Type}
    (short : ∀ resource, (layout.path resource).length ≤ FileTree.pathLimit)
    (calls : List (Call α)) : Refines layout tree memory calls := by
  have valid := (Layout.validate_eq_ok_iff _).1 comparable.passed
  obtain ⟨slot, mirrors, targets⟩ := comparable.exists_mirrors short
  refine ((Mirrors.simulation valid slot tree).trace calls mirrors).imp ?_
  rintro ⟨answer, directory⟩ ⟨other, memory⟩ ⟨same, still⟩
  refine ⟨same, still.arranged, still.read_eq valid, fun address apart => ?_⟩
  refine still.others address fun resource here => ?_
  exact apart resource (here ▸ targets resource)

end Comparable

/-- A directory with one file, which is read, replaced and read again. -/
theorem one_file_refines :
    let tree : FileTree := ⟨[(["pythonInput.rced"], .file "\x7b\x7d".toUTF8)], []⟩
    let memory := MemoryStore.empty.set .inputValues "\x7b\x7d"
    let calls : List (Call Unit) :=
      [.read .inputValues, .write .inputValues "[]", .read .inputValues, .load, .collect]
    Refines Layout.standard tree memory calls := by
  intro tree memory calls
  have located (resource : Resource) : tree.locate (Layout.standard.path resource) =
      .ok (FileTree.Place.ofEntry [Layout.defaultName resource]
        (if resource = .inputValues then some (.file "\x7b\x7d".toUTF8) else none)) := by
    cases resource <;> rfl
  refine directory_refines_memory ?_ (by decide) calls
  refine ⟨by decide, by decide, .inr ⟨[], rfl⟩, fun resource address => ?_,
    fun resource content => ?_⟩
  · rw [located]
    split <;> nofun
  · rw [located]
    by_cases here : resource = .inputValues
    · subst here
      constructor
      · rintro ⟨address, ⟨⟩⟩
        exact ⟨_, rfl, rfl⟩
      · rintro ⟨text, ⟨⟩, rfl⟩
        exact ⟨_, rfl⟩
    · rw [if_neg here]
      constructor
      · rintro ⟨address, ⟨⟩⟩
      · rintro ⟨text, present, -⟩
        change (if resource = .inputValues then some _ else none) = some text at present
        rw [if_neg here] at present
        cases present

/-! ## Paths that are too long -/

/-- The current directory, spelled with many detours. -/
def detour (count : Nat) : Path := (List.replicate count (Text.utf8 "./")).flatten

theorem detour_succ (count : Nat) :
    detour (count + 1) = Text.utf8 "." ++ Path.slash :: detour count := by
  rw [detour, List.replicate_succ, List.flatten_cons]
  rfl

theorem components_detour (count : Nat) :
    Path.components (detour count) = List.replicate count (Text.utf8 ".") := by
  induction count with
  | zero => rfl
  | succ count ih =>
      rw [Path.components] at ih ⊢
      rw [detour_succ, List.splitOn_append_cons_self, List.filter_append, ih]
      rfl

theorem length_detour (count : Nat) : (detour count).length = 2 * count := by
  induction count with
  | zero => rfl
  | succ count ih =>
      have piece : (Text.utf8 ".").length = 1 := by decide
      rw [detour_succ, List.length_append, List.length_cons, piece, ih]
      omega

theorem enter_stays (tree : FileTree) (here : Address) (count : Nat) :
    tree.enter here (List.replicate count (Text.utf8 ".")) = .ok here := by
  induction count with
  | zero => rfl
  | succ count ih =>
      rw [List.replicate_succ, FileTree.enter, FileTree.descend, if_pos rfl]
      exact ih

theorem nul_not_mem_detour (count : Nat) : 0 ∉ detour count := by
  induction count with
  | zero => exact List.not_mem_nil
  | succ count ih =>
      rw [detour_succ, List.mem_append, List.mem_cons, not_or, not_or]
      exact ⟨by decide, by decide, ih⟩

theorem locate_detour (tree : FileTree) {count : Nat} (filled : count ≠ 0)
    (short : 2 * count ≤ FileTree.pathLimit) :
    tree.locate (detour count) = .ok (.directory tree.current) := by
  obtain ⟨count, rfl⟩ := Nat.exists_eq_succ_of_ne_zero filled
  have plain : ¬ (detour (count + 1)).contains 0 = true := by
    simpa using nul_not_mem_detour (count + 1)
  have notEmpty : ¬ (detour (count + 1)).isEmpty = true := by
    rw [detour_succ]
    exact Bool.false_ne_true
  have relative : tree.start (detour (count + 1)) = tree.current := by
    rw [FileTree.start, Path.isAbsolute, detour_succ]
    rfl
  have approached : tree.approach (detour (count + 1)) = .ok (tree.current, some ".") := by
    rw [FileTree.approach, if_neg plain, if_neg notEmpty,
      if_neg (Nat.not_lt.2 (length_detour _ ▸ short)), components_detour, relative,
      List.replicate_succ']
    simp only [List.dropLast_concat, List.getLast?_concat, enter_stays]
    rfl
  rw [FileTree.locate, approached]
  change tree.placeIn tree.current "." = _
  rw [FileTree.placeIn, if_pos (.inl rfl), FileTree.descend, if_pos rfl]
  rfl

theorem FileTree.slot_of_long (tree : FileTree) {dir name : Path}
    (long : pathLimit < (Path.join dir name).length) :
    tree.slot dir name = .error .nulInPath ∨ tree.slot dir name = .error .nameTooLong := by
  rw [slot]
  split
  · exact .inl rfl
  · exact .inr rfl

theorem Layout.valid_inDir (dir : Path) : (Layout.inDir dir).Valid :=
  (Layout.validate_eq_ok_iff Layout.standard).1 (by decide)

/-- A file that cannot be named is not reported as missing. -/
theorem not_sameAnswer_of_long {α : Type} {layout : Layout} {tree : FileTree}
    {resource : Resource} (valid : layout.Valid)
    (long : FileTree.pathLimit < (layout.path resource).length) :
    ¬ SameAnswer
      ((Call.read (α := α) resource).perform (⟨layout, tree⟩ : DirectoryStore)).result
      ((Call.read resource).perform MemoryStore.empty).result := by
  intro same
  change SameAnswer
    (((Store.read (⟨layout, tree⟩ : DirectoryStore) resource).mapError (.io resource)).map
      Reply.text)
    (.error (.io resource .absent)) at same
  rw [DirectoryStore.read_eq, DirectoryStore.bytes, Layout.path,
    FileTree.readBytes_join (valid.1 resource).isName] at same
  rcases FileTree.slot_of_long tree long with nul | tooLong
  · rw [nul] at same
    cases same with
    | notFound _ _ _ kind => exact absurd kind (by decide)
  · rw [tooLong] at same
    cases same with
    | notFound _ _ _ kind => exact absurd kind (by decide)

/-- A layout in a directory that can be entered, but whose files cannot be named. -/
def beyondLimit : Layout := Layout.inDir (detour 2045)

theorem long_beyondLimit (resource : Resource) :
    FileTree.pathLimit < (beyondLimit.path resource).length := by
  have name : 6 ≤ (Text.utf8 (Layout.defaultName resource)).length := by
    cases resource <;> decide
  have isName : Path.IsName (Text.utf8 (Layout.defaultName resource)) :=
    ((Layout.valid_inDir []).1 resource).isName
  have joined := Path.le_length_join isName (detour 2045)
  rw [length_detour] at joined
  change 4095 < (Path.join (detour 2045) (Layout.defaultName resource)).length
  omega

theorem comparable_beyondLimit :
    Comparable beyondLimit FileTree.empty MemoryStore.empty := by
  have valid : beyondLimit.Valid := Layout.valid_inDir _
  have unplaced (resource : Resource) (place : FileTree.Place) :
      FileTree.empty.locate (beyondLimit.path resource) ≠ .ok place := by
    rw [Layout.path, FileTree.locate_join (valid.1 resource).isName]
    intro found
    rcases FileTree.slot_of_long _ (long_beyondLimit resource) with nul | long
    · rw [nul] at found
      cases found
    · rw [long] at found
      cases found
  exact {
    passed := (Layout.validate_eq_ok_iff _).2 valid
    names := by decide
    present := .inr ⟨[], locate_detour _ (by decide) (by decide)⟩
    free := fun resource address => unplaced resource _
    held := by
      intro resource content
      constructor
      · rintro ⟨address, found⟩
        exact absurd found (unplaced resource _)
      · rintro ⟨text, present, -⟩
        cases present }

/-- **Beyond the limit a directory does not do what a map does**: it does not
report a file that is missing as missing. -/
theorem not_refines_beyond_path_limit :
    ¬ ∀ (layout : Layout) (tree : FileTree) (memory : MemoryStore),
      Comparable layout tree memory →
        ∀ calls : List (Call Unit), Refines layout tree memory calls := by
  intro refines
  have valid : beyondLimit.Valid := Layout.valid_inDir _
  have long := long_beyondLimit .inputValues
  have comparable := comparable_beyondLimit
  generalize beyondLimit = layout at valid long comparable
  have trace := refines layout FileTree.empty MemoryStore.empty comparable [.read .inputValues]
  obtain ⟨⟨same, -⟩, -⟩ := List.forall₂_cons.1 trace
  exact not_sameAnswer_of_long valid long same

end RunExchange
