import Mathlib.Tactic
import RunExchange.Proofs.Files.Changes
import RunExchange.Proofs.Store.Directory
import RunExchange.Proofs.Store.Writing
/-!
# Proofs.Store.Prefix -- what a failed write leaves in a directory

The place of a resource is the address that a write to it replaces; the resource
is writable if it has one.  Writing a resource of a valid layout gives no other
resource another place (`place_of_write`), so whether a later write succeeds is
settled before the first one.  Nor does it change what stands in the tree elsewhere
(`Frame`).

Staging and finalizing therefore leave exactly a prefix (`writes_stop_at_first_failure`):
the resources before the first one that is not writable have their new texts, and
nothing else in the tree has changed, the failing resource and the later ones
included.  The resources that were tried are announced, and the summary is
reported only if none failed.
-/

namespace RunExchange

set_option autoImplicit false

/-! ## Writing what is there -/

namespace FileTree

theorem replace_of_lookup {address : Address} {entry : Entry} {entries : List (Address × Entry)}
    (held : lookup address entries = some entry) : replace address entry entries = entries := by
  induction entries with
  | nil => cases held
  | cons head entries ih =>
      obtain ⟨here, old⟩ := head
      rw [lookup] at held
      rw [replace]
      split
      · next same =>
          rw [if_pos same] at held
          rw [← Option.some.inj held, same]
      · next apart =>
          rw [if_neg apart] at held
          rw [ih held]

theorem put_of_get? {tree : FileTree} {address : Address} {entry : Entry} (below : address ≠ [])
    (held : tree.get? address = some entry) : tree.put address entry = tree := by
  rw [get?, if_neg below] at held
  rw [put, replace_of_lookup held]

/-- The slot of a name is the name below the directory, if that can be entered
and neither the path nor the name is refused. -/
theorem slot_eq_ok_iff {tree : FileTree} {dir name : Path} {address : Address} :
    tree.slot dir name = .ok address ↔
      0 ∉ Path.join dir name ∧ (Path.join dir name).length ≤ pathLimit ∧
        name.length ≤ nameLimit ∧
        ∃ here, tree.enter (tree.start dir) (Path.components dir) = .ok here ∧
          address = here ++ [name] := by
  simp only [slot, List.contains_iff_mem]
  by_cases nul : 0 ∈ Path.join dir name
  · simp [nul]
  · by_cases long : pathLimit < (Path.join dir name).length
    · simp [nul, long]
    · cases tree.enter (tree.start dir) (Path.components dir) with
      | error cause => simp [nul, long, bind, Except.bind]
      | ok here =>
          by_cases longName : nameLimit < name.length
          · simp [nul, long, longName, bind, Except.bind]
          · have short := Nat.not_lt.1 long
            have low := Nat.not_lt.1 longName
            simp [nul, long, longName, short, low, bind, Except.bind, pure, Except.pure, eq_comm]

end FileTree

namespace DirectoryStore

/-! ## Places -/

/-- The address that a write to a resource replaces. -/
def place (store : DirectoryStore) (resource : Resource) : Except IoError Address :=
  store.tree.target (store.layout.path resource)

/-- A write to the resource has a place to go. -/
def Writable (store : DirectoryStore) (resource : Resource) : Prop :=
  ∃ address, store.place resource = .ok address

instance (store : DirectoryStore) (resource : Resource) : Decidable (store.Writable resource) :=
  match placed : store.place resource with
  | .ok address => .isTrue ⟨address, placed⟩
  | .error _ => .isFalse fun ⟨_, other⟩ => nomatch placed.symm.trans other

theorem write_eq_place (store : DirectoryStore) (resource : Resource) (text : String) :
    Store.write store resource text = (store.place resource).map fun address =>
      { store with tree := store.tree.put address (.file text.toUTF8) } := by
  rw [write_eq, overwrite, ← place]
  cases store.place resource <;> rfl

theorem write_eq_ok {store written : DirectoryStore} {resource : Resource} {text : String}
    (done : Store.write store resource text = .ok written) :
    ∃ address, store.place resource = .ok address ∧
      written = { store with tree := store.tree.put address (.file text.toUTF8) } := by
  rw [write_eq] at done
  exact overwrite_eq_ok done

/-- A resource is writable exactly if a write to it succeeds, whatever the text. -/
theorem writable_iff_write (store : DirectoryStore) (resource : Resource) (text : String) :
    store.Writable resource ↔ ∃ written, Store.write store resource text = .ok written := by
  constructor
  · rintro ⟨address, placed⟩
    rw [write_eq_place, placed]
    exact ⟨_, rfl⟩
  · rintro ⟨written, done⟩
    obtain ⟨address, placed, -⟩ := write_eq_ok done
    exact ⟨address, placed⟩

section Valid

variable {store written : DirectoryStore} {resource : Resource} {text : String}
  (valid : store.layout.Valid)
include valid

/-- A resource of a valid layout is writable if its path can be followed to a
directory, its name is not too long, and it is not the name of a directory. -/
theorem writable_iff :
    store.Writable resource ↔
      0 ∉ store.layout.path resource ∧
      (store.layout.path resource).length ≤ FileTree.pathLimit ∧
      (store.layout.fileName resource).utf8ByteSize ≤ FileTree.nameLimit ∧
      ∃ here, store.tree.enter (store.tree.start store.layout.workingDir)
          (Path.components store.layout.workingDir) = .ok here ∧
        store.tree.get? (here ++ [(store.layout.fileName resource : Path)]) ≠ some .directory := by
  simp only [Writable, place, Layout.path, FileTree.target_eq_ok_iff (valid.1 resource).isName,
    FileTree.slot_eq_ok_iff, Text.length_utf8]
  constructor
  · rintro ⟨address, ⟨plain, short, low, here, entered, rfl⟩, free⟩
    exact ⟨plain, short, low, here, entered, free⟩
  · rintro ⟨plain, short, low, here, entered, free⟩
    exact ⟨_, ⟨plain, short, low, here, entered, rfl⟩, free⟩

/-- A tree in which a file was placed gives every resource its old place. -/
theorem place_of_write (done : Store.write store resource text = .ok written) :
    written.place = store.place := by
  obtain ⟨address, placed, rfl⟩ := write_eq_ok done
  funext other
  exact FileTree.target_put (valid.1 other).isName (valid.1 resource).isName placed _

end Valid

/-- **A text that is in a file already is written without a change.** -/
theorem settled : Store.Settled DirectoryStore fun store => store.layout.Valid where
  toKeeping := keeping
  again := by
    intro store resource text valid read
    obtain ⟨address, target, held⟩ := exists_target_of_read valid read
    have placed : store.place resource = .ok address := target
    have below := (FileTree.target_eq_ok target).1
    rw [write_eq_place, placed, Except.map, FileTree.put_of_get? below held]
  announce := by
    intro store written resource text _ done
    obtain ⟨address, -, rfl⟩ := write_eq_ok done
    rfl

/-- If all resources of a valid layout are writable, they remain so. -/
theorem ready : Store.Ready DirectoryStore fun store =>
    store.layout.Valid ∧ ∀ resource, store.Writable resource where
  write := by
    rintro store written resource text ⟨valid, writable⟩ done
    obtain ⟨kept, read⟩ := keeping.write valid done
    refine ⟨⟨kept, fun other => ?_⟩, read⟩
    rw [Writable, place_of_write valid done]
    exact writable other
  succeeds := by
    rintro store resource text ⟨valid, writable⟩
    exact (writable_iff_write store resource text).1 (writable resource)

/-! ## What a write leaves alone -/

/-- Two stores differ at most in the files of some resources. -/
structure Frame (resources : List Resource) (before after : DirectoryStore) : Prop where
  layout : after.layout = before.layout
  current : after.tree.current = before.tree.current
  bytes : ∀ resource ∉ resources, after.bytes resource = before.bytes resource
  /-- Neither do the trees, at any address at which no file of these resources
  could be written. -/
  entries : ∀ address, (∀ resource ∈ resources, before.place resource ≠ .ok address) →
    after.tree.get? address = before.tree.get? address

namespace Frame

variable {resources more : List Resource} {before between after : DirectoryStore}

theorem refl (resources : List Resource) (store : DirectoryStore) :
    Frame resources store store :=
  ⟨rfl, rfl, fun _ _ => rfl, fun _ _ => rfl⟩

theorem mono (frame : Frame resources before after) (wider : resources ⊆ more) :
    Frame more before after where
  layout := frame.layout
  current := frame.current
  bytes resource absent := frame.bytes resource fun here => absent (wider here)
  entries address apart := frame.entries address fun resource here =>
    apart resource (wider here)

/-- If the first change leaves the places where they are, a second one to the same
resources may follow. -/
theorem trans (first : Frame resources before between) (same : between.place = before.place)
    (second : Frame resources between after) : Frame resources before after where
  layout := second.layout.trans first.layout
  current := second.current.trans first.current
  bytes resource absent := (second.bytes resource absent).trans (first.bytes resource absent)
  entries address apart :=
    have apartThen : ∀ resource ∈ resources, between.place resource ≠ .ok address := by
      rw [same]
      exact apart
    (second.entries address apartThen).trans (first.entries address apart)

end Frame

section Write

variable {store written : DirectoryStore} {resource : Resource} {text : String}
  (valid : store.layout.Valid)
include valid

/-- After a write the file has the bytes of the text, and those of the other
resources have the bytes that they had. -/
theorem bytes_of_write (done : Store.write store resource text = .ok written) :
    written.bytes = Function.update store.bytes resource (.ok text.toUTF8) := by
  rw [write_eq] at done
  exact (bytes_overwrite valid done).2

theorem frame_of_write (done : Store.write store resource text = .ok written) :
    Frame [resource] store written := by
  have bytes := bytes_of_write valid done
  obtain ⟨address, placed, rfl⟩ := write_eq_ok done
  constructor
  case layout => rfl
  case current => rfl
  case bytes =>
    intro other absent
    rw [bytes, Function.update_of_ne (List.ne_of_not_mem_cons absent)]
  case entries =>
    intro other apart
    have elsewhere : other ≠ address := by
      rintro rfl
      exact apart resource List.mem_cons_self placed
    rw [FileTree.get?_put _ (FileTree.target_eq_ok placed).1, if_neg elsewhere]

end Write

/-! ## Writing in turn -/

/-- The writes that succeed when they are tried in turn. -/
def landed (store : DirectoryStore) (writes : List (Resource × String)) :
    List (Resource × String) :=
  writes.takeWhile fun write => store.Writable write.1

/-- The writes that are tried: those that succeed, and the one that fails. -/
def attempted (store : DirectoryStore) (writes : List (Resource × String)) :
    List (Resource × String) :=
  writes.take ((store.landed writes).length + 1)

/-- How writing in turn to a directory ended, with some events at the end of a
success. -/
structure WroteInTurn (before : DirectoryStore) (writes : List (Resource × String))
    (closing : List Event) (report : Report DirectoryStore ExchangeError Unit) : Prop where
  /-- It failed exactly if some resource was not writable. -/
  fails_iff : (∃ error, report.result = .error error) ↔ ∃ write ∈ writes, ¬ before.Writable write.1
  /-- The error is that of the first such resource. -/
  error : ∀ write, writes.find? (fun write => ¬ before.Writable write.1) = some write →
    ∃ cause, Store.write before write.1 write.2 = .error cause ∧
      report.result = .error (.io write.1 cause)
  /-- The resources before it have the new texts. -/
  landed : ∀ write ∈ before.landed writes, report.state.bytes write.1 = .ok write.2.toUTF8
  /-- Nothing else has changed. -/
  frame : Frame ((before.landed writes).map Prod.fst) before report.state
  /-- The attempts were announced in order. -/
  events : report.events =
    (before.attempted writes).flatMap (fun write => Store.announce before write.1) ++
      match report.result with
      | .ok _ => closing
      | .error _ => []

theorem landed_cons (store : DirectoryStore) (write : Resource × String)
    (writes : List (Resource × String)) :
    store.landed (write :: writes) =
      if store.Writable write.1 then write :: store.landed writes else [] := by
  simp only [landed, List.takeWhile_cons, decide_eq_true_eq]

theorem mem_of_mem_landed {store : DirectoryStore} {writes : List (Resource × String)}
    {resource : Resource} (here : resource ∈ (store.landed writes).map Prod.fst) :
    resource ∈ writes.map Prod.fst :=
  ((List.takeWhile_sublist _).map Prod.fst).subset here

section Same

variable {store other : DirectoryStore} (same : other.place = store.place)
include same

/-- What succeeds depends on the places alone. -/
theorem writable_of_place (resource : Resource) :
    other.Writable resource ↔ store.Writable resource := by
  rw [Writable, Writable, same]

theorem landed_of_place (writes : List (Resource × String)) :
    other.landed writes = store.landed writes := by
  simp only [landed, writable_of_place same]

theorem attempted_of_place (writes : List (Resource × String)) :
    other.attempted writes = store.attempted writes := by
  rw [attempted, attempted, landed_of_place same]

/-- So does the cause of a failure. -/
theorem write_error_of_place {resource : Resource} {text : String} {cause : IoError}
    (failed : Store.write other resource text = .error cause) :
    Store.write store resource text = .error cause := by
  rw [write_eq_place, same] at failed
  rw [write_eq_place]
  cases placed : store.place resource with
  | error cause =>
      rw [placed] at failed
      exact failed
  | ok address =>
      rw [placed] at failed
      cases failed

end Same

namespace WroteInTurn

variable {before : DirectoryStore} {write : Resource × String}
  {writes : List (Resource × String)} {closing : List Event}

theorem nil (before : DirectoryStore) : WroteInTurn before [] [] (Store.putAll [] before) where
  fails_iff := by
    constructor
    · rintro ⟨error, ⟨⟩⟩
    · rintro ⟨write, ⟨⟩, -⟩
  error := nofun
  landed := nofun
  frame := .refl _ before
  events := rfl

/-- The first write fails, and nothing is done. -/
theorem stop {cause : IoError} (failed : Store.write before write.1 write.2 = .error cause)
    (writes : List (Resource × String)) :
    WroteInTurn before (write :: writes) [] (Store.putAll (write :: writes) before) := by
  have stuck : ¬ before.Writable write.1 := by
    rw [writable_iff_write before write.1 write.2, failed]
    nofun
  have nothing : before.landed (write :: writes) = [] := by rw [landed_cons, if_neg stuck]
  rw [Store.putAll_of_error failed]
  constructor
  case fails_iff => exact ⟨fun _ => ⟨write, List.mem_cons_self, stuck⟩, fun _ => ⟨_, rfl⟩⟩
  case error =>
    intro first found
    rw [List.find?_cons_of_pos (by simpa using stuck)] at found
    cases found
    exact ⟨cause, failed, rfl⟩
  case landed =>
    rw [nothing]
    nofun
  case frame => exact .refl _ before
  case events =>
    rw [attempted, nothing]
    simp

/-- The first write succeeds, and the others go on in the tree that it leaves. -/
theorem step {written : DirectoryStore} (valid : before.layout.Valid)
    (done : Store.write before write.1 write.2 = .ok written)
    (fresh : write.1 ∉ writes.map Prod.fst)
    (later : WroteInTurn written writes [] (Store.putAll writes written)) :
    WroteInTurn before (write :: writes) [] (Store.putAll (write :: writes) before) := by
  have same := place_of_write valid done
  have first : before.Writable write.1 :=
    (writable_iff_write before write.1 write.2).2 ⟨written, done⟩
  have all : before.landed (write :: writes) = write :: written.landed writes := by
    rw [landed_cons, if_pos first, landed_of_place same]
  rw [Store.putAll_of_ok done]
  constructor
  case fails_iff =>
    refine later.fails_iff.trans ⟨?_, ?_⟩
    · rintro ⟨other, there, stuck⟩
      exact ⟨other, List.mem_cons_of_mem _ there, mt (writable_of_place same _).2 stuck⟩
    · rintro ⟨other, here, stuck⟩
      rcases List.mem_cons.1 here with rfl | there
      · exact absurd first stuck
      · exact ⟨other, there, mt (writable_of_place same _).1 stuck⟩
  case error =>
    intro other found
    rw [List.find?_cons_of_neg (by simpa using first)] at found
    simp only [← writable_of_place same] at found
    obtain ⟨cause, failed, result⟩ := later.error other found
    exact ⟨cause, write_error_of_place same failed, result⟩
  case landed =>
    rw [all]
    intro other here
    rcases List.mem_cons.1 here with rfl | there
    · rw [later.frame.bytes other.1 (mt mem_of_mem_landed fresh), bytes_of_write valid done,
        Function.update_self]
    · exact later.landed other there
  case frame =>
    rw [all]
    have here := (frame_of_write valid done).mono (List.cons_subset_cons write.1
      (List.nil_subset ((written.landed writes).map Prod.fst)))
    exact here.trans same (later.frame.mono (List.subset_cons_self ..))
  case events =>
    have tried : before.attempted (write :: writes) = write :: before.attempted writes := by
      rw [attempted, all, landed_of_place same]
      rfl
    have announced : Store.announce written = Store.announce before :=
      settled.announce valid done
    rw [tried, List.flatMap_cons, later.events, attempted_of_place same, announced,
      List.append_assoc]

/-- **Writing in turn leaves a prefix.** -/
theorem putAll {before : DirectoryStore} (valid : before.layout.Valid)
    {writes : List (Resource × String)} (distinct : (writes.map Prod.fst).Nodup) :
    WroteInTurn before writes [] (Store.putAll writes before) := by
  induction writes generalizing before with
  | nil => exact nil before
  | cons write writes ih =>
      rw [List.map_cons, List.nodup_cons] at distinct
      cases done : Store.write before write.1 write.2 with
      | error cause => exact stop done writes
      | ok written =>
          obtain ⟨kept, -⟩ := keeping.write valid done
          exact step valid done distinct.1 (ih kept distinct.2)

/-- An event after the last write is reported at the end of a success. -/
theorem bind_emit {action : Action DirectoryStore ExchangeError Unit}
    (wrote : WroteInTurn before writes [] (action before)) (event : Event) :
    WroteInTurn before writes [event] ((action >>= fun _ => Action.emit event) before) := by
  rw [Action.bind_emit]
  exact { wrote with
    events := by
      rw [wrote.events]
      cases (action before).result <;> simp }

end WroteInTurn

/-! ## Staging and finalizing -/

section Documents

variable {store : DirectoryStore}

theorem finalize_wroteInTurn (valid : store.layout.Valid) (exchange : Exchange) :
    WroteInTurn store exchange.texts [exchange.finalized] (exchange.finalize store) := by
  rw [finalize_eq]
  exact (WroteInTurn.putAll valid exchange.nodup_texts).bind_emit _

theorem stage_wroteInTurn (valid : store.layout.Valid) (request : Request) :
    WroteInTurn store request.texts [request.staged] (request.stage store) := by
  rw [stage_eq]
  exact (WroteInTurn.putAll valid request.nodup_texts).bind_emit _

/-- The summary, which is no announcement, is reported exactly after a success. -/
theorem WroteInTurn.mem_events_iff {writes : List (Resource × String)} {event : Event}
    {report : Report DirectoryStore ExchangeError Unit}
    (wrote : WroteInTurn store writes [event] report) (summary : event.severity ≠ .trace) :
    event ∈ report.events ↔ report.result = .ok () := by
  have apart : event ∉ (store.attempted writes).flatMap
      (fun write => Store.announce store write.1) := by
    intro here
    obtain ⟨write, -, announced⟩ := List.mem_flatMap.1 here
    rw [List.mem_singleton.1 announced] at summary
    exact summary rfl
  rw [wrote.events, List.mem_append]
  cases report.result with
  | error error => simp [apart]
  | ok value => simp

/-- **Failed writes leave exactly a prefix**: of the results when an exchange is
finalized, and of the initial resources when a request is staged.  A resource is
writable if its path can be followed to a directory in which its name is short
enough and is not that of a directory. -/
theorem writes_stop_at_first_failure (passed : store.layout.validate = .ok ()) :
    (∀ resource, store.Writable resource ↔
      0 ∉ store.layout.path resource ∧
      (store.layout.path resource).length ≤ FileTree.pathLimit ∧
      (store.layout.fileName resource).utf8ByteSize ≤ FileTree.nameLimit ∧
      ∃ here, store.tree.enter (store.tree.start store.layout.workingDir)
          (Path.components store.layout.workingDir) = .ok here ∧
        store.tree.get? (here ++ [(store.layout.fileName resource : Path)]) ≠ some .directory) ∧
      (∀ exchange : Exchange,
        WroteInTurn store exchange.texts [exchange.finalized] (exchange.finalize store) ∧
          (exchange.finalized ∈ (exchange.finalize store).events ↔
            (exchange.finalize store).result = .ok ())) ∧
      ∀ request : Request,
        WroteInTurn store request.texts [request.staged] (request.stage store) ∧
          (request.staged ∈ (request.stage store).events ↔
            (request.stage store).result = .ok ()) := by
  have valid := (Layout.validate_eq_ok_iff _).1 passed
  refine ⟨fun resource => writable_iff valid, fun exchange => ?_, fun request => ?_⟩
  · have wrote := finalize_wroteInTurn valid exchange
    exact ⟨wrote, wrote.mem_events_iff nofun⟩
  · have wrote := stage_wroteInTurn valid request
    exact ⟨wrote, wrote.mem_events_iff nofun⟩

/-- A directory stands where the state would be written. -/
def blocked : DirectoryStore :=
  ⟨Layout.standard, ⟨[(["pythonStateOutput.rces"], .directory)], []⟩⟩

/-- The outputs and the closed outputs are written before the state, and nothing
after it. -/
theorem blocked_stops_at_state :
    (Exchange.empty.finalize blocked).result = .error (.io .stateOutput .isDirectory) ∧
      (Exchange.empty.finalize blocked).state.bytes .outputValues = .ok "\x7b\x7d".toUTF8 ∧
      (Exchange.empty.finalize blocked).state.bytes .closeOutputs = .ok "[]".toUTF8 ∧
      (Exchange.empty.finalize blocked).state.bytes .indefiniteOutputs =
        blocked.bytes .indefiniteOutputs ∧
      (Exchange.empty.finalize blocked).events.length = 3 := by
  have passed : blocked.layout.validate = .ok () := by decide
  obtain ⟨wrote, -⟩ := (writes_stop_at_first_failure passed).2.1 Exchange.empty
  have landed : blocked.landed Exchange.empty.texts =
      [(.outputValues, "\x7b\x7d"), (.closeOutputs, "[]")] := by decide
  have tried : (blocked.attempted Exchange.empty.texts).length = 3 := by decide
  have refused : blocked.place .stateOutput = .error .isDirectory := by decide
  obtain ⟨cause, failed, result⟩ := wrote.error (.stateOutput, "\x7b\x7d") (by decide)
  rw [write_eq_place, refused] at failed
  cases failed
  have written := wrote.landed
  have others := wrote.frame.bytes
  rw [landed] at written others
  have outputs := written (.outputValues, "\x7b\x7d") List.mem_cons_self
  have closed := written (.closeOutputs, "[]") (List.mem_cons_of_mem _ List.mem_cons_self)
  refine ⟨result, outputs, closed, others .indefiniteOutputs (by decide), ?_⟩
  rw [wrote.events, result, List.append_nil, List.length_flatMap]
  simp [Store.announce, tried]

end Documents

end DirectoryStore

end RunExchange
