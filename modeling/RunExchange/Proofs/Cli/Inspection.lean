import Mathlib
import RunExchange.Proofs.Cli.Ownership
import RunExchange.Proofs.Json.Printing
import RunExchange.Proofs.Store.Fetching
/-!
# Proofs.Cli.Inspection -- a request that was staged is shown

Inspecting after staging prints the documents of the request, whatever lay in the
directory before (`staged_request_is_shown`).  Three things make it so: staging
leaves the configuration file alone, unless that is one of the files it writes;
what was staged is what a worker loads; and the summary nests no deeper than the
request did, so the printed text can be read wherever the request could.

The directory is the exception: staging writes to any directory, and an inspection
of one whose path is no text breaks off (`inspection_breaks_off_after_staging`).
-/

namespace RunExchange

set_option autoImplicit false

open Json (Fits)

/-! ## The configuration after a change -/

/-- A configuration depends on the text of its file alone. -/
theorem Settings.load_of_readText {tree later : FileTree} {environment : Environment}
    {stem : String} {config : Option Path} {settings : Settings}
    (loaded : load tree environment stem config = .ok settings)
    (same : ∀ path text, config = some path → tree.readText path = .ok text →
      later.readText path = .ok text) : load later environment stem config = .ok settings := by
  cases config with
  | none => exact loaded
  | some path =>
      obtain ⟨text, read, rest⟩ := Except.bind_eq_ok_iff.1 loaded
      have again := same path text rfl (Except.mapError_eq_ok_iff.1 read)
      exact Except.bind_eq_ok_iff.2 ⟨text, Except.mapError_eq_ok_iff.2 again, rest⟩

namespace Cli

section Commands

variable (filters : FilterReader) {tree later : FileTree} {environment : Environment}
  {invocation : Invocation} {settings : Settings}

/-- What a command owns is no directory. -/
theorem Owns.not_directory {address : Address} (owned : Owns tree environment invocation address) :
    tree.get? address ≠ some .directory := by
  cases owned with
  | staged command loaded read decoded initial leads => exact (FileTree.target_eq_ok leads).2
  | generated command loaded free leads => exact (FileTree.target_eq_ok leads).2

/-- The configuration file, if there is one, is not owned by the command. -/
def SparesConfig (tree : FileTree) (environment : Environment) (invocation : Invocation) : Prop :=
  ∀ path, invocation.config = some path → ∀ address content,
    tree.locate path = .ok (.file address content) → ¬ Owns tree environment invocation address

/-- **A command that spares the configuration file leaves the configuration as it
was.** -/
theorem effective_of_frame (frame : tree.Frame (Owns tree environment invocation) later)
    (spares : SparesConfig tree environment invocation)
    (loaded : effective tree environment invocation = .ok settings) :
    effective later environment invocation = .ok settings := by
  have ways := frame.sameWays fun address owned => owned.not_directory
  obtain ⟨stated, found, rest⟩ := Except.bind_eq_ok_iff.1 loaded
  have again : Settings.load later environment Settings.defaultStem invocation.config =
      .ok stated :=
    Settings.load_of_readText found fun path text config read =>
      ways.readText read fun address content located =>
        frame.entries address (spares path config address content located)
  exact Except.bind_eq_ok_iff.2 ⟨stated, again, rest⟩

/-! ## Staging -/

theorem Task.bind_attempt_eq_ok_iff {ε α β : Type} {context : String} {chain : ε → List String}
    {result : Except ε α} {next : α → Task β} {value : β} :
    ((attempt context chain result >>= next) tree).result = .ok value ↔
      ∃ found, result = .ok found ∧ (next found tree).result = .ok value := by
  cases result with
  | error error =>
      constructor
      · rintro ⟨⟩
      · rintro ⟨found, ⟨⟩, -⟩
  | ok found =>
      constructor
      · exact fun done => ⟨found, rfl, done⟩
      · rintro ⟨found, ⟨⟩, done⟩
        exact done

theorem Task.onStore_eq_ok_iff {layout : Layout} {context : String}
    {action : Action DirectoryStore ExchangeError Unit} {value : Unit} :
    ((onStore layout action).mapError
        (fun error => Failure.reported (context :: error.chain)) tree).result = .ok value ↔
      (action ⟨layout, tree⟩).result = .ok value := by
  show (action ⟨layout, tree⟩).result.mapError _ = _ ↔ _
  exact Except.mapError_eq_ok_iff

/-- Staging succeeds if the request can be read and decoded and every write
succeeds. -/
theorem exists_stage_iff {layout : Layout} {path : Path} :
    (∃ said, (stage layout path tree).result = .ok said) ↔
      ∃ text, ∃ request : Request, tree.readText path = .ok text ∧
        Document.decode text = .ok request ∧
        (request.stage (⟨layout, tree⟩ : DirectoryStore)).result = .ok () := by
  constructor
  · rintro ⟨said, done⟩
    obtain ⟨text, read, done⟩ := Task.bind_attempt_eq_ok_iff.1 done
    obtain ⟨request, decoded, done⟩ := Task.bind_attempt_eq_ok_iff.1 done
    obtain ⟨_, staged, -⟩ := Action.bind_eq_ok_iff.1 done
    exact ⟨text, request, read, decoded, Task.onStore_eq_ok_iff.1 staged⟩
  · rintro ⟨text, request, read, decoded, staged⟩
    exact ⟨_, Task.bind_attempt_eq_ok_iff.2 ⟨text, read, Task.bind_attempt_eq_ok_iff.2
      ⟨request, decoded, Action.bind_eq_ok_iff.2 ⟨(), Task.onStore_eq_ok_iff.2 staged, rfl⟩⟩⟩⟩

/-- The program succeeds if the configuration can be loaded and the command succeeds. -/
theorem code_execute_eq_zero_iff :
    (execute filters tree environment invocation).code = 0 ↔
      ∃ settings, effective tree environment invocation = .ok settings ∧
        ∃ output, (perform settings environment invocation.command tree).result = .ok output := by
  rw [execute]
  cases loaded : effective tree environment invocation with
  | error error => simp
  | ok settings =>
      dsimp only
      cases ended : (perform settings environment invocation.command tree).result with
      | error failure => cases failure <;> simp [ended, Failure.code]
      | ok output => simp [ended]

theorem code_stage_eq_zero_iff {path : Path}
    (command : invocation.command = some (.stage path)) :
    (execute filters tree environment invocation).code = 0 ↔
      ∃ settings, effective tree environment invocation = .ok settings ∧
        ∃ text, ∃ request : Request, tree.readText path = .ok text ∧
          Document.decode text = .ok request ∧
          (request.stage (⟨settings.layout, tree⟩ : DirectoryStore)).result = .ok () := by
  simp only [code_execute_eq_zero_iff filters, ← exists_stage_iff, command]
  refine exists_congr fun settings => and_congr_right fun _ => ?_
  constructor
  · rintro ⟨output, done⟩
    obtain ⟨said, staged, -⟩ := Action.bind_eq_ok_iff.1 done
    exact ⟨said, staged⟩
  · rintro ⟨said, staged⟩
    exact ⟨_, Action.bind_eq_ok_iff.2 ⟨said, staged, rfl⟩⟩

/-- After a success a worker would load the request that was staged. -/
theorem load_after_stage {store : DirectoryStore} {text : String} {request : Request}
    (valid : store.layout.Valid) (decoded : Document.decode text = .ok request)
    (staged : (request.stage store).result = .ok ()) :
    Exchange.load (⟨store.layout, (request.stage store).state.tree⟩ : DirectoryStore) =
      request.opened := by
  obtain ⟨-, read⟩ := DirectoryStore.keeping.stage valid staged
  have same := (DirectoryStore.frame_of_stage valid request).layout
  rw [← same]
  exact load_staged (Request.handedOn_of_decode decoded) read

end Commands

/-! ## Inspecting -/

/-- A document with the contents of a request and nothing that was missing. -/
structure Summarizes (request : Request) (value : Json) : Prop where
  inputs : value.member? "inputs" = some (Document.toJson request.inputs)
  requiredIfConnected :
    value.member? "required_if_connected" = some (Document.toJson request.requiredIfConnected)
  outputNames : value.member? "output_names" = some (Document.toJson request.outputNames)
  state : value.member? "state" = some (Document.toJson request.state)
  runNumber : value.member? "run_number" = some (Document.toJson request.runNumber)
  defaulted : value.member? "defaulted" = some (.array [])

theorem summarizes_opened (dir : String) (request : Request) :
    Summarizes request (summary dir request.opened) :=
  ⟨rfl, rfl, rfl, rfl, rfl, rfl⟩

/-- The summary puts each document where the request had it. -/
theorem fits_summary {text : String} {request : Request} (dir : String)
    (decoded : Document.decode text = .ok request) :
    Fits Json.nestingLimit 0 (summary dir request.opened) := by
  obtain ⟨inputs, state⟩ := (Request.standsIn_of_decode decoded).fits
  have names : ∀ names : List String, Fits Json.nestingLimit 1 (Document.toJson names) :=
    fits_names (by decide)
  refine Json.fits_object_iff.2 ⟨by decide, by simp [Entries.keys], ?_⟩
  simp only [List.forall_mem_cons]
  exact ⟨⟨show 0 + 1 + 0 ≤ 127 by decide, trivial⟩, inputs, names _, names _, state,
    ⟨show 0 + 1 + 0 ≤ 127 by decide, trivial⟩, names [],
    fun _ absent => absurd absent List.not_mem_nil⟩

/-- What is printed of a value is read as the value. -/
theorem decode_printed {value : Json} (fits : Fits Json.nestingLimit 0 value) :
    Document.decode (value.pretty ++ "\n") = .ok value := by
  have room : value.depth ≤ Json.nestingLimit := by simpa using fits.1
  rw [decode_of_tokens value fits.2 (Json.ofText_pretty value)]
  exact if_pos room

section Commands

variable (filters : FilterReader) {tree : FileTree} {environment : Environment}
  {invocation : Invocation} {settings : Settings}

theorem execute_inspect {dir : String}
    (loaded : effective tree environment invocation = .ok settings)
    (isText : settings.layout.workingDir = Text.utf8 dir) :
    let response := execute filters tree environment { invocation with command := some .inspect }
    response.code = 0 ∧ response.output = .text ((summary dir
      (Exchange.load (⟨settings.layout, tree⟩ : DirectoryStore))).pretty ++ "\n") := by
  intro response
  have again : effective tree environment { invocation with command := some .inspect } =
      .ok settings := loaded
  have inspected : (inspect settings.layout tree).result =
      .ok (summary dir (Exchange.load (⟨settings.layout, tree⟩ : DirectoryStore))) := by
    rw [inspect, isText, Text.ofUtf8?_utf8]
  have performed : (perform settings environment (some .inspect) tree).result =
      .ok (.text ((summary dir
        (Exchange.load (⟨settings.layout, tree⟩ : DirectoryStore))).pretty ++ "\n")) :=
    (Action.bind_of_ok inspected).1
  simp only [response, execute, again, performed, and_self]

/-- If the arguments state a text or nothing, the working directory is a text. -/
theorem exists_text_of_effective (loaded : effective tree environment invocation = .ok settings)
    (stated : ∀ dir, invocation.dir = some dir → (Text.ofUtf8? dir).isSome) :
    ∃ dir, settings.layout.workingDir = Text.utf8 dir := by
  have again : effective tree environment { invocation with command := some .inspect } =
      .ok settings := loaded
  have unbroken :
      ¬ BreaksOff tree environment { invocation with command := some .inspect } := by
    intro broken
    obtain ⟨dir, states, noText⟩ := broken.noText
    simpa [noText] using stated dir states
  rw [breaksOff_iff again rfl] at unbroken
  obtain ⟨dir, shown⟩ := Option.ne_none_iff_exists'.1 unbroken
  exact ⟨dir, Text.ofUtf8?_eq_some_iff.1 shown⟩

end Commands

/-- **A request that was staged is shown** by an inspection with the same options,
whatever the files held before: with the documents that stand in its text, and with
the defaults of those that are missing there.  The inspection breaks off instead if
the options state a working directory that is no text. -/
theorem staged_request_is_shown {filters : FilterReader} {tree : FileTree}
    {environment : Environment} {arguments later : List Argument} {invocation : Invocation}
    {path : Path}
    (asked : Accepted arguments invocation) (command : invocation.command = some (.stage path))
    (askedLater : Accepted later { invocation with command := some .inspect })
    (succeeded : (respond filters tree environment arguments).code = 0)
    (spares : SparesConfig tree environment invocation) :
    ∃ text, ∃ request : Request, tree.readText path = .ok text ∧
      Document.decode text = .ok request ∧ request.StandsIn text ∧
      let response := respond filters (respond filters tree environment arguments).tree
        environment later
      ((∀ dir, invocation.dir = some dir → (Text.ofUtf8? dir).isSome) →
        response.code = 0 ∧ ∃ printed, response.output = .text printed ∧
          ∃ shown, Document.decode printed = .ok shown ∧ Summarizes request shown) ∧
      ∀ dir, invocation.dir = some dir → Text.ofUtf8? dir = none →
        response.code = 101 ∧ response.output = .nothing := by
  rw [respond_of_accepted filters asked] at succeeded ⊢
  rw [respond_of_accepted filters askedLater]
  obtain ⟨settings, loaded, text, request, read, decoded, staged⟩ :=
    (code_stage_eq_zero_iff filters command).1 succeeded
  have again : effective (execute filters tree environment invocation).tree environment
      invocation = .ok settings :=
    effective_of_frame (keepsTo_stage filters command loaded).frame spares loaded
  have left : (execute filters tree environment invocation).tree =
      (request.stage (⟨settings.layout, tree⟩ : DirectoryStore)).state.tree := by
    rw [tree_execute filters loaded, command]
    exact ((leaves_stage_of_decoded read decoded).map _).state
  refine ⟨text, request, read, decoded, Request.standsIn_of_decode decoded, fun stated => ?shown,
    fun dir states noText => ?broken⟩
  case shown =>
    obtain ⟨dir, isText⟩ := exists_text_of_effective again stated
    obtain ⟨code, output⟩ := execute_inspect filters again isText
    have opened : Exchange.load (⟨settings.layout,
        (execute filters tree environment invocation).tree⟩ : DirectoryStore) =
          request.opened := by
      rw [left]
      exact load_after_stage (valid_of_effective loaded) decoded staged
    rw [opened] at output
    exact ⟨code, _, output, _, decode_printed (fits_summary dir decoded), summarizes_opened _ _⟩
  case broken =>
    have broken : BreaksOff (execute filters tree environment invocation).tree environment
        { invocation with command := some .inspect } := ⟨rfl, ⟨_, again⟩, dir, states, noText⟩
    obtain ⟨-, -, code, output, -⟩ := execute_of_breaksOff filters broken
    exact ⟨code, output⟩

/-- A request without a run number that declares an output twice. -/
def declaresTwice : String := "\x7b\"inputs\":\x7b\"a\":[1]\x7d,\"output_names\":[\"o\",\"o\"]\x7d"

/-- The request, a configuration and an empty directory. -/
def prepared : FileTree where
  entries := [(["r.json"], .file declaresTwice.toUTF8),
    (["c.yaml"], .file "files:\n  working_dir: y\n".toUTF8), (["x"], .directory)]
  current := []

theorem targets_in_prepared (resource : Resource) :
    prepared.target ((Layout.inDir "x").path resource) =
      .ok ["x", Layout.defaultName resource] := by
  revert resource
  decide +kernel

/-- Repeated names are shown, and a default where the request had nothing. -/
theorem declared_twice_is_shown_twice :
    let options := ["--config", "c.yaml", "--dir", "x"]
    let staging := (options ++ ["stage", "--request", "r.json"]).map Text.utf8
    let inspecting := (options ++ ["inspect"]).map Text.utf8
    let staged := (respond .directives prepared [] staging).tree
    ∃ printed, (respond .directives staged [] inspecting).output = .text printed ∧
      ∃ shown : Json, Document.decode printed = .ok shown ∧
        shown.member? "output_names" = some (Json.ofTexts ["o", "o"]) ∧
        shown.member? "run_number" = some (Json.ofInt64 (-1)) := by
  intro options staging inspecting staged
  let invocation : Invocation :=
    ⟨some (Text.utf8 "c.yaml"), none, some (Text.utf8 "x"), some (.stage "r.json")⟩
  have loaded : effective prepared [] invocation = .ok ⟨Layout.inDir "x", {}⟩ := by
    decide +kernel
  have spares : SparesConfig prepared [] invocation := by
    intro path config address content located owned
    cases config
    have there : prepared.locate "c.yaml" =
      .ok (.file ["c.yaml"] "files:\n  working_dir: y\n".toUTF8) := by rfl
    rw [there] at located
    cases located
    cases owned with
    | staged command found read decoded initial leads =>
        rw [loaded] at found
        cases found
        rw [targets_in_prepared] at leads
        exact absurd (List.cons.inj (Except.ok.inj leads)).1 (by decide)
    | generated command => cases command
  obtain ⟨text, request, read, decoded, -, shows, -⟩ :=
    staged_request_is_shown
      (⟨[(.program, [(.config, "c.yaml"), (.dir, "x")]), (.stage, [(.request, "r.json")])],
        by cbv, by cbv⟩ : Accepted staging invocation)
      rfl
      (⟨[(.program, [(.config, "c.yaml"), (.dir, "x")]), (.inspect, [])], by cbv, by cbv⟩ :
        Accepted inspecting { invocation with command := some .inspect })
      (by decide +kernel : (respond .directives prepared [] staging).code = 0) spares
  obtain ⟨-, printed, output, shown, printedIs, shows⟩ := shows fun dir states => by
    cases states
    decide
  have same : prepared.readText "r.json" = .ok declaresTwice := by decide +kernel
  rw [same] at read
  cases read
  have known : (Document.decode declaresTwice).map
      (fun request : Request => (request.outputNames, request.runNumber)) =
        .ok (["o", "o"], -1) := by cbv
  rw [decoded] at known
  obtain ⟨names, number⟩ := Prod.mk.inj (Except.ok.inj known)
  refine ⟨printed, output, shown, printedIs, ?_, ?_⟩
  · rw [shows.outputNames, names]
    rfl
  · rw [shows.runNumber, number]
    rfl

/-- An empty request, and a directory whose name is no text. -/
def unnamed : FileTree :=
  ⟨[(["r.json"], .file "\x7b\x7d".toUTF8), ([[0xff]], .directory)], []⟩

/-- Not every request that was staged is shown: staging goes by the bytes of a directory,
and an inspection needs its text. -/
theorem inspection_breaks_off_after_staging :
    ¬ ∀ (filters : FilterReader) (tree : FileTree) (environment : Environment)
      (arguments later : List Argument) (invocation : Invocation) (path : Path),
      Accepted arguments invocation → invocation.command = some (.stage path) →
        Accepted later { invocation with command := some .inspect } →
          (respond filters tree environment arguments).code = 0 →
            SparesConfig tree environment invocation →
              (respond filters (respond filters tree environment arguments).tree environment
                later).code = 0 := by
  intro shows
  let invocation : Invocation := ⟨none, none, some [0xff], some (.stage "r.json")⟩
  let staging : List Argument := ["stage", "--request", "r.json", "--dir", [0xff]]
  let inspecting : List Argument := ["inspect", "--dir", [0xff]]
  have asked : Accepted staging invocation :=
    ⟨[(.program, []), (.stage, [(.request, "r.json"), (.dir, [0xff])])], by cbv, by cbv⟩
  have askedLater : Accepted inspecting { invocation with command := some .inspect } :=
    ⟨[(.program, []), (.inspect, [(.dir, [0xff])])], by cbv, by cbv⟩
  have succeeded : (respond .directives unnamed [] staging).code = 0 := by decide +kernel
  have spares : SparesConfig unnamed [] invocation := by
    rintro path ⟨⟩
  have code := shows _ _ _ _ _ _ _ asked rfl askedLater succeeded spares
  obtain ⟨-, -, crashed, -⟩ := execute_of_breaksOff .directives
    (breaksOff_of_dir (by decide) : BreaksOff (respond .directives unnamed [] staging).tree []
      { invocation with command := some .inspect })
  rw [respond_of_accepted _ askedLater, crashed] at code
  cases code

end Cli

end RunExchange
