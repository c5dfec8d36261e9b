import Mathlib
import RunExchange.Cli.Program
import RunExchange.Proofs.Config.WorkingDir
import RunExchange.Proofs.Files.Changes
import RunExchange.Proofs.Store.Prefix
/-!
# Proofs.Cli.Ownership -- what a command may change

A command owns the addresses that it may write to (`Owns`): staging owns the
targets of the five initial resources once its request was read and decoded, and
generating a configuration owns the target of its output, if nothing is there or
overwriting was asked for.  Nothing else is ever changed, and a command without a
configuration owns nothing (`commands_keep_to_their_files`).

A command that fails says why and prints nothing, with one exception: an inspection
breaks off where the arguments state a working directory that is no text
(`BreaksOff`, `inspection_breaks_off`).  Even then nothing is printed or changed.
-/

namespace RunExchange

set_option autoImplicit false

theorem Request.mem_initial_of_mem_texts {request : Request} {resource : Resource}
    (here : resource ∈ request.texts.map Prod.fst) : resource ∈ Resource.initial := by
  have all : request.texts.map Prod.fst =
      [.inputValues, .requiredIfConnected, .declaredOutputs, .stateVariables, .runNumber] := rfl
  rw [all] at here
  revert here resource
  decide

namespace DirectoryStore

/-- Stores that differ in some resources have trees that differ in their places. -/
theorem Frame.tree {resources : List Resource} {before after : DirectoryStore}
    (frame : Frame resources before after) :
    before.tree.Frame (fun address => ∃ resource ∈ resources, before.place resource = .ok address)
      after.tree where
  current := frame.current
  entries address apart := frame.entries address fun resource here placed =>
    apart ⟨resource, here, placed⟩

/-- Staging changes initial resources only, whether it succeeds or not. -/
theorem frame_of_stage {store : DirectoryStore} (valid : store.layout.Valid) (request : Request) :
    Frame Resource.initial store (request.stage store).state :=
  (stage_wroteInTurn valid request).frame.mono fun _ here =>
    Request.mem_initial_of_mem_texts (mem_of_mem_landed here)

/-- The inputs are written first; if that fails, nothing is done. -/
theorem stage_of_not_writable {store : DirectoryStore} (stuck : ¬ store.Writable .inputValues)
    (request : Request) : (request.stage store).state = store := by
  rw [stage_eq, Action.bind_emit]
  cases done : Store.write store .inputValues (Document.encode request.inputs) with
  | error cause => exact congrArg Report.state (Store.putAll_of_error done _)
  | ok written => exact absurd ((writable_iff_write store _ _).2 ⟨written, done⟩) stuck

end DirectoryStore

namespace Cli

/-! ## Tasks -/

namespace Task

variable {α β : Type} {before after between : FileTree}

/-- A report of work that left a tree and, if it failed, blames something. -/
structure Leaves (after : FileTree) (report : Report FileTree Failure α) : Prop where
  state : report.state = after
  blames : ∀ failure, report.result = .error failure → ∃ message causes,
    failure = .reported (message :: causes)

theorem leaves_pure (value : α) (tree : FileTree) :
    Leaves tree ((pure value : Task α) tree) :=
  ⟨rfl, nofun⟩

theorem leaves_look (tree : FileTree) : Leaves tree ((Action.inspect : Task FileTree) tree) :=
  ⟨rfl, nofun⟩

theorem leaves_emit (event : Event) (tree : FileTree) :
    Leaves tree ((Action.emit event : Task Unit) tree) :=
  ⟨rfl, nofun⟩

theorem leaves_attempt {ε : Type} (context : String) (chain : ε → List String)
    (result : Except ε α) (tree : FileTree) : Leaves tree (attempt context chain result tree) := by
  cases result with
  | error error => exact ⟨rfl, fun _ failed => ⟨_, _, (Except.error.inj failed).symm⟩⟩
  | ok value => exact ⟨rfl, nofun⟩

/-- Work on a store leaves the tree of the store. -/
theorem leaves_onStore (layout : Layout) (context : String)
    (action : Action DirectoryStore ExchangeError α) (tree : FileTree) :
    Leaves (action ⟨layout, tree⟩).state.tree
      ((onStore layout action).mapError
        (fun error => Failure.reported (context :: error.chain)) tree) := by
  refine ⟨rfl, fun failure failed => ?_⟩
  change (action ⟨layout, tree⟩).result.mapError _ = _ at failed
  cases ended : (action ⟨layout, tree⟩).result with
  | ok value =>
      rw [ended] at failed
      cases failed
  | error error =>
      rw [ended] at failed
      exact ⟨_, _, (Except.error.inj failed).symm⟩

/-- Work in sequence leaves what its last part leaves. -/
theorem Leaves.bind {first : Task α} {next : α → Task β}
    (left : Leaves between (first before))
    (stopped : ∀ error, (first before).result = .error error → between = after)
    (went : ∀ value, (first before).result = .ok value → Leaves after (next value between)) :
    Leaves after ((first >>= next) before) := by
  cases done : (first before).result with
  | error error =>
      refine ⟨(Action.bind_of_error done).2.trans (left.state.trans (stopped error done)), ?_⟩
      rw [(Action.bind_of_error done).1]
      rintro failure ⟨⟩
      exact left.blames error done
  | ok value =>
      have last := went value done
      rw [← left.state] at last
      refine ⟨(Action.bind_of_ok done).2.trans last.state, ?_⟩
      rw [(Action.bind_of_ok done).1]
      exact last.blames

/-- Turning a result into another one leaves what there was. -/
theorem Leaves.map {task : Task α} (left : Leaves after (task before)) (turn : α → β) :
    Leaves after ((do return turn (← task) : Task β) before) :=
  left.bind (fun _ _ => rfl) fun _ _ => leaves_pure _ _

theorem leaves_bind_look {next : FileTree → Task β}
    (went : Leaves after (next before before)) : Leaves after ((Action.inspect >>= next) before) :=
  (leaves_look before).bind nofun fun _ seen => Except.ok.inj seen ▸ went

theorem leaves_bind_emit {event : Event} {next : Unit → Task β}
    (went : Leaves after (next () before)) :
    Leaves after ((Action.emit event >>= next) before) :=
  (leaves_emit event before).bind nofun fun _ _ => went

theorem leaves_bind_attempt {ε : Type} {context : String} {chain : ε → List String}
    {result : Except ε α} {next : α → Task β}
    (stopped : ∀ error, result = .error error → before = after)
    (went : ∀ value, result = .ok value → Leaves after (next value before)) :
    Leaves after ((attempt context chain result >>= next) before) := by
  refine (leaves_attempt context chain result before).bind (fun errors failed => ?_)
    fun value done => ?_
  · cases result with
    | error error => exact stopped error rfl
    | ok value => cases failed
  · cases result with
    | error error => cases done
    | ok value =>
        cases done
        exact went _ rfl

theorem leaves_ite {condition : Prop} [Decidable condition] {first second : Task α}
    (holding : condition → Leaves after (first before))
    (failing : ¬ condition → Leaves after (second before)) :
    Leaves after ((if condition then first else second) before) := by
  by_cases holds : condition
  · rw [if_pos holds]
    exact holding holds
  · rw [if_neg holds]
    exact failing holds

end Task

/-! ## Commands -/

section Commands

open RunExchange.Cli.Task

variable {tree : FileTree} {layout : Layout}

/-- An inspection leaves the tree, and can show a working directory that is a text. -/
theorem leaves_inspect {dir : String} (isText : layout.workingDir = Text.utf8 dir)
    (tree : FileTree) : Leaves tree (inspect layout tree) := by
  rw [inspect, isText, Text.ofUtf8?_utf8]
  exact ⟨rfl, nofun⟩

theorem leaves_collect (layout : Layout) (tree : FileTree) : Leaves tree (collect layout tree) :=
  leaves_bind_look <| leaves_bind_attempt (fun _ _ => rfl) fun _ _ =>
    leaves_bind_emit <| leaves_pure _ tree

theorem leaves_validateConfig (environment : Environment) (path : Path) (tree : FileTree) :
    Leaves tree (validateConfig environment path tree) :=
  leaves_bind_look <| leaves_bind_emit <| leaves_bind_attempt (fun _ _ => rfl) fun _ _ =>
    leaves_pure _ tree

/-- A request that cannot be read or decoded is not staged. -/
theorem leaves_stage_of_rejected {path : Path}
    (rejected : ∀ text (request : Request), tree.readText path = .ok text →
      Document.decode text ≠ .ok request) : Leaves tree (stage layout path tree) :=
  leaves_bind_look <| leaves_bind_attempt (fun _ _ => rfl) fun text read =>
    leaves_bind_attempt (fun _ _ => rfl) fun request decoded =>
      absurd decoded (rejected text request read)

/-- Staging leaves what the writes of the request leave. -/
theorem leaves_stage_of_decoded {path : Path} {text : String} {request : Request}
    (read : tree.readText path = .ok text) (decoded : Document.decode text = .ok request) :
    Leaves (request.stage (⟨layout, tree⟩ : DirectoryStore)).state.tree
      (stage layout path tree) := by
  refine leaves_bind_look <| leaves_bind_attempt (fun cause failed => ?_) fun other found => ?_
  · rw [read] at failed
    cases failed
  rw [read] at found
  cases found
  refine leaves_bind_attempt (fun fault failed => ?_) fun other found => ?_
  · rw [decoded] at failed
    cases failed
  rw [decoded] at found
  cases found
  exact (leaves_onStore layout _ request.stage tree).bind (fun _ _ => rfl) fun _ _ =>
    leaves_bind_emit <| leaves_pure _ _

/-- Either nothing is generated, or the sample is written where nothing was or where
overwriting was asked for. -/
theorem leaves_generateConfig (tree : FileTree) (path : Path) (force : Bool) :
    Leaves tree (generateConfig path force tree) ∨
      ∃ written, (tree.holds path = true → force = true) ∧
        tree.write path Settings.sample = .ok written ∧
        Leaves written (generateConfig path force tree) := by
  by_cases kept : (tree.holds path && !force) = true
  · refine .inl <| leaves_bind_look <| leaves_ite (fun _ => ⟨rfl, ?_⟩) (absurd kept)
    exact fun _ failed => ⟨_, _, (Except.error.inj failed).symm⟩
  · cases done : tree.write path Settings.sample with
    | error cause =>
        refine .inl <| leaves_bind_look <| leaves_ite (fun held => absurd held kept) fun _ => ?_
        rw [done]
        exact ⟨rfl, fun _ failed => ⟨_, _, (Except.error.inj failed).symm⟩⟩
    | ok written =>
        refine .inr ⟨written, by simpa using kept, rfl, leaves_bind_look <|
          leaves_ite (fun held => absurd held kept) fun _ => ?_⟩
        rw [done]
        exact ⟨rfl, nofun⟩

end Commands

/-! ## Ownership -/

/-- The arguments ask for an invocation. -/
def Accepted (arguments : List Argument) (invocation : Invocation) : Prop :=
  ∃ levels, read arguments = .accepted levels ∧ invocation = .ofLevels levels

/-- The addresses that a command may write to. -/
inductive Owns (tree : FileTree) (environment : Environment) (invocation : Invocation) :
    Address → Prop
  /-- The file of an initial resource, once the request was read and decoded. -/
  | staged {path : Path} {text : String} {settings : Settings} {request : Request}
      {resource : Resource} {address : Address}
      (command : invocation.command = some (.stage path))
      (loaded : effective tree environment invocation = .ok settings)
      (read : tree.readText path = .ok text)
      (decoded : Document.decode text = .ok request)
      (initial : resource ∈ Resource.initial)
      (leads : tree.target (settings.layout.path resource) = .ok address) :
      Owns tree environment invocation address
  /-- The output, if nothing is there or overwriting was asked for. -/
  | generated {output : Path} {force : Bool} {settings : Settings} {address : Address}
      (command : invocation.command = some (.generateConfig output force))
      (loaded : effective tree environment invocation = .ok settings)
      (free : tree.holds output = true → force = true)
      (leads : tree.target output = .ok address) :
      Owns tree environment invocation address

/-- The configuration cannot be loaded, or the command fails. -/
def Fails (tree : FileTree) (environment : Environment) (invocation : Invocation) : Prop :=
  ∀ settings, effective tree environment invocation = .ok settings →
    ∃ failure, (perform settings environment invocation.command tree).result = .error failure

/-- An inspection is to show a working directory that is no text; only the arguments
can state one. -/
structure BreaksOff (tree : FileTree) (environment : Environment) (invocation : Invocation) :
    Prop where
  command : invocation.command = some .inspect
  loaded : ∃ settings, effective tree environment invocation = .ok settings
  noText : ∃ dir, invocation.dir = some dir ∧ Text.ofUtf8? dir = none

/-- A response that changes owned addresses at most, and in case of a failure says why
and prints nothing, unless it breaks off. -/
structure KeepsTo (owned : Address → Prop) (failed broken : Prop) (tree : FileTree)
    (response : Response) : Prop where
  frame : tree.Frame owned response.tree
  /-- If nothing is owned, the tree is the very same. -/
  unchanged : (∀ address, ¬ owned address) → response.tree = tree
  failure : failed → ¬ broken →
    response.code = 1 ∧ response.output = .nothing ∧ response.errors ≠ []
  breakage : broken → failed ∧ response.tree = tree ∧
    response.code = 101 ∧ response.output = .nothing ∧ response.errors = []
  success : ¬ failed → response.code = 0 ∧ response.errors = []

section Execute

variable (filters : FilterReader) {tree after : FileTree} {environment : Environment}
  {invocation : Invocation} {settings : Settings}

theorem respond_of_accepted {arguments : List Argument} (asked : Accepted arguments invocation) :
    respond filters tree environment arguments =
      execute filters tree environment invocation := by
  obtain ⟨levels, accepted, rfl⟩ := asked
  rw [respond, accepted]

/-- Without a configuration nothing is done. -/
theorem keepsTo_of_not_loaded {error : ConfigError} (owned : Address → Prop)
    (refused : effective tree environment invocation = .error error) :
    KeepsTo owned (Fails tree environment invocation) (BreaksOff tree environment invocation)
      tree (execute filters tree environment invocation) := by
  have never (settings : Settings) : effective tree environment invocation ≠ .ok settings := by
    rw [refused]
    nofun
  rw [execute, refused]
  exact {
    frame := .refl owned tree
    unchanged := fun _ => rfl
    failure := fun _ _ => ⟨rfl, rfl, List.cons_ne_nil _ _⟩
    breakage := fun broken =>
      broken.loaded.elim fun settings loaded => absurd loaded (never settings)
    success := absurd fun settings loaded => absurd loaded (never settings) }

/-- An invocation leaves the tree that its command leaves. -/
theorem tree_execute (loaded : effective tree environment invocation = .ok settings) :
    (execute filters tree environment invocation).tree =
      (perform settings environment invocation.command tree).state := by
  rw [execute, loaded]
  dsimp only
  cases (perform settings environment invocation.command tree).result <;> rfl

theorem fails_iff (loaded : effective tree environment invocation = .ok settings) :
    Fails tree environment invocation ↔ ∃ failure,
      (perform settings environment invocation.command tree).result = .error failure := by
  refine ⟨fun fails => fails settings loaded, fun failed other found => ?_⟩
  rw [loaded] at found
  cases found
  exact failed

theorem execute_of_ok {output : Output}
    (loaded : effective tree environment invocation = .ok settings)
    (done : (perform settings environment invocation.command tree).result = .ok output) :
    (execute filters tree environment invocation).code = 0 ∧
      (execute filters tree environment invocation).errors = [] := by
  rw [execute, loaded]
  simp only [done, and_self]

theorem execute_of_error {failure : Failure}
    (loaded : effective tree environment invocation = .ok settings)
    (failed : (perform settings environment invocation.command tree).result = .error failure) :
    let response := execute filters tree environment invocation
    response.code = failure.code ∧ response.output = .nothing ∧
      response.errors = failure.messages := by
  intro response
  simp only [response, execute, loaded, failed, and_self]

theorem keepsTo_of_leaves {owned : Address → Prop}
    (loaded : effective tree environment invocation = .ok settings)
    (left : Task.Leaves after (perform settings environment invocation.command tree))
    (unbroken : ¬ BreaksOff tree environment invocation)
    (frame : tree.Frame owned after) (unchanged : (∀ address, ¬ owned address) → after = tree) :
    KeepsTo owned (Fails tree environment invocation) (BreaksOff tree environment invocation)
      tree (execute filters tree environment invocation) := by
  have same : (execute filters tree environment invocation).tree = after :=
    (tree_execute filters loaded).trans left.state
  refine ⟨same ▸ frame, same ▸ unchanged, fun fails _ => ?_, fun broken => absurd broken unbroken,
    fun succeeds => ?_⟩
  · obtain ⟨failure, failed⟩ := (fails_iff loaded).1 fails
    obtain ⟨message, causes, rfl⟩ := left.blames failure failed
    obtain ⟨code, output, errors⟩ := execute_of_error filters loaded failed
    exact ⟨code, output, by rw [errors]; exact List.cons_ne_nil _ _⟩
  · cases ended : (perform settings environment invocation.command tree).result with
    | ok output => exact execute_of_ok filters loaded ended
    | error failure => exact absurd ((fails_iff loaded).2 ⟨failure, ended⟩) succeeds

/-- A command that leaves the tree as it is keeps to whatever it owns. -/
theorem keepsTo_of_looking (owned : Address → Prop)
    (loaded : effective tree environment invocation = .ok settings)
    (left : Task.Leaves tree (perform settings environment invocation.command tree))
    (unbroken : ¬ BreaksOff tree environment invocation) :
    KeepsTo owned (Fails tree environment invocation) (BreaksOff tree environment invocation)
      tree (execute filters tree environment invocation) :=
  keepsTo_of_leaves filters loaded left unbroken (.refl owned tree) fun _ => rfl

theorem not_breaksOff (other : invocation.command ≠ some .inspect) :
    ¬ BreaksOff tree environment invocation :=
  fun broken => other broken.command

/-- Only the arguments can state a working directory that is no text. -/
theorem breaksOff_iff (loaded : effective tree environment invocation = .ok settings)
    (command : invocation.command = some .inspect) :
    BreaksOff tree environment invocation ↔ Text.ofUtf8? settings.layout.workingDir = none := by
  obtain ⟨configured, found, same⟩ := Except.bind_eq_ok_iff.1 loaded
  obtain rfl := Except.ok.inj same
  cases stated : invocation.dir with
  | none =>
      obtain ⟨text, isText⟩ := Settings.exists_text_of_load found
      have shown : Text.ofUtf8? configured.layout.workingDir ≠ none := by
        rw [isText, Text.ofUtf8?_utf8]
        nofun
      refine ⟨fun broken => ?_, fun noText => absurd noText shown⟩
      obtain ⟨dir, other, -⟩ := broken.noText
      rw [stated] at other
      cases other
  | some dir =>
      refine ⟨fun broken => ?_, fun noText => ⟨command, ⟨_, loaded⟩, dir, stated, noText⟩⟩
      obtain ⟨other, same, noText⟩ := broken.noText
      rw [stated] at same
      cases same
      exact noText

/-- An inspection breaks off before it prints anything, or can show what it found. -/
theorem keepsTo_inspect (owned : Address → Prop) (command : invocation.command = some .inspect)
    (loaded : effective tree environment invocation = .ok settings) :
    KeepsTo owned (Fails tree environment invocation) (BreaksOff tree environment invocation)
      tree (execute filters tree environment invocation) := by
  cases shown : Text.ofUtf8? settings.layout.workingDir with
  | some dir =>
      have unbroken : ¬ BreaksOff tree environment invocation := by
        rw [breaksOff_iff loaded command, shown]
        nofun
      refine keepsTo_of_looking filters owned loaded ?_ unbroken
      rw [command]
      exact (leaves_inspect (Text.ofUtf8?_eq_some_iff.1 shown) tree).map _
  | none =>
      have inspected : (inspect settings.layout tree).result = .error .crashed := by
        rw [inspect, shown]
      have failed : (perform settings environment invocation.command tree).result =
          .error .crashed := by
        rw [command]
        exact (Action.bind_of_error inspected).1
      have same : (execute filters tree environment invocation).tree = tree := by
        rw [tree_execute filters loaded, command]
        exact (Action.bind_of_error inspected).2
      have fails := (fails_iff loaded).2 ⟨_, failed⟩
      obtain ⟨code, output, errors⟩ := execute_of_error filters loaded failed
      exact {
        frame := same.symm ▸ .refl owned tree
        unchanged := fun _ => same
        failure := fun _ unbroken => absurd ((breaksOff_iff loaded command).2 shown) unbroken
        breakage := fun _ => ⟨fails, same, code, output, errors⟩
        success := absurd fails }

/-- An inspection that breaks off does and prints nothing, and has a code of its own. -/
theorem execute_of_breaksOff (broken : BreaksOff tree environment invocation) :
    let response := execute filters tree environment invocation
    Fails tree environment invocation ∧ response.tree = tree ∧
      response.code = 101 ∧ response.output = .nothing ∧ response.errors = [] := by
  obtain ⟨settings, loaded⟩ := broken.loaded
  exact (keepsTo_inspect filters (fun _ => False) broken.command loaded).breakage broken

/-- Where nothing is configured, an inspection of a directory that is no text breaks off,
whatever the tree. -/
theorem breaksOff_of_dir {dir : Path} (noText : Text.ofUtf8? dir = none) :
    BreaksOff tree [] ⟨none, none, some dir, some .inspect⟩ := by
  have configured : Settings.ofEnvironment [] Settings.defaultStem = .ok .standard := by decide
  exact {
    command := rfl
    loaded := ⟨_, Except.bind_eq_ok_iff.2 ⟨_, configured, rfl⟩⟩
    noText := ⟨dir, rfl, noText⟩ }

theorem valid_of_effective (loaded : effective tree environment invocation = .ok settings) :
    settings.layout.Valid := by
  obtain ⟨stated, found, ⟨⟩⟩ := Except.bind_eq_ok_iff.1 loaded
  -- The working directory plays no part in validity.
  have valid := Settings.valid_of_load environment _ found
  exact valid

theorem keepsTo_stage {path : Path} (command : invocation.command = some (.stage path))
    (loaded : effective tree environment invocation = .ok settings) :
    KeepsTo (Owns tree environment invocation) (Fails tree environment invocation)
      (BreaksOff tree environment invocation) tree
      (execute filters tree environment invocation) := by
  have unbroken : ¬ BreaksOff tree environment invocation :=
    not_breaksOff (command ▸ nofun)
  by_cases accepted : ∃ text, ∃ request : Request,
      tree.readText path = .ok text ∧ Document.decode text = .ok request
  · obtain ⟨text, request, read, decoded⟩ := accepted
    let store : DirectoryStore := ⟨settings.layout, tree⟩
    have left : Task.Leaves (request.stage store).state.tree
        (perform settings environment invocation.command tree) := by
      rw [command]
      exact (leaves_stage_of_decoded read decoded).map _
    refine keepsTo_of_leaves filters loaded left unbroken ?_ fun nothing => ?_
    · have frame : store.Frame Resource.initial (request.stage store).state :=
        DirectoryStore.frame_of_stage (valid_of_effective loaded) request
      refine frame.tree.mono ?_
      rintro address ⟨resource, initial, leads⟩
      exact .staged command loaded read decoded initial leads
    · have stuck : ¬ store.Writable .inputValues := by
        rintro ⟨address, leads⟩
        exact nothing address (.staged command loaded read decoded (by decide) leads)
      rw [DirectoryStore.stage_of_not_writable stuck]
  · refine keepsTo_of_looking filters _ loaded ?_ unbroken
    rw [command]
    refine Task.Leaves.map (leaves_stage_of_rejected fun text request read decoded => ?_) _
    exact accepted ⟨text, request, read, decoded⟩

theorem keepsTo_generateConfig {output : Path} {force : Bool}
    (command : invocation.command = some (.generateConfig output force))
    (loaded : effective tree environment invocation = .ok settings) :
    KeepsTo (Owns tree environment invocation) (Fails tree environment invocation)
      (BreaksOff tree environment invocation) tree
      (execute filters tree environment invocation) := by
  have unbroken : ¬ BreaksOff tree environment invocation :=
    not_breaksOff (command ▸ nofun)
  obtain same | ⟨written, free, done, left⟩ := leaves_generateConfig tree output force
  · refine keepsTo_of_looking filters _ loaded ?_ unbroken
    rw [command]
    exact same.map _
  · have left : Task.Leaves written (perform settings environment invocation.command tree) := by
      rw [command]
      exact left.map _
    refine keepsTo_of_leaves filters loaded left unbroken ?_ fun nothing => ?_
    · exact (FileTree.frame_of_write done).mono fun address leads =>
        .generated command loaded free leads
    · obtain ⟨address, leads, -⟩ := FileTree.write_eq_ok done
      exact absurd (.generated command loaded free leads) (nothing address)

end Execute

/-- **A command changes what it owns and nothing else**, whatever the arguments, the
tree and the environment.  A command that fails says why and prints nothing, unless it
is an inspection that cannot show its directory; that breaks off. -/
theorem commands_keep_to_their_files {arguments : List Argument} {invocation : Invocation}
    (asked : Accepted arguments invocation) (filters : FilterReader) (tree : FileTree)
    (environment : Environment) :
    KeepsTo (Owns tree environment invocation) (Fails tree environment invocation)
      (BreaksOff tree environment invocation) tree
      (respond filters tree environment arguments) := by
  rw [respond_of_accepted filters asked]
  cases loaded : effective tree environment invocation with
  | error error => exact keepsTo_of_not_loaded filters _ loaded
  | ok settings =>
      cases command : invocation.command with
      | none =>
          refine keepsTo_of_looking filters _ loaded ?_ (not_breaksOff (command ▸ nofun))
          rw [command]
          exact Task.leaves_pure _ tree
      | some asks =>
          cases asks with
          | inspect => exact keepsTo_inspect filters _ command loaded
          | stage path => exact keepsTo_stage filters command loaded
          | collect =>
              refine keepsTo_of_looking filters _ loaded ?_ (not_breaksOff (command ▸ nofun))
              rw [command]
              exact (leaves_collect _ tree).map _
          | validateConfig file =>
              refine keepsTo_of_looking filters _ loaded ?_ (not_breaksOff (command ▸ nofun))
              rw [command]
              exact (leaves_validateConfig environment file tree).map _
          | generateConfig output force => exact keepsTo_generateConfig filters command loaded

/-- A file is not overwritten without force. -/
theorem output_is_kept :
    let arguments : List Argument := ["config", "generate", "--output", "x.yaml"]
    let invocation : Invocation := ⟨none, none, none, some (.generateConfig "x.yaml" false)⟩
    let tree : FileTree := ⟨[(["x.yaml"], .file "files:".toUTF8)], []⟩
    Accepted arguments invocation ∧ (respond .directives tree [] arguments).tree = tree := by
  intro arguments invocation tree
  have asked : Accepted arguments invocation :=
    ⟨[(.program, []), (.config, []), (.generate, [(.output, "x.yaml")])], by cbv, by cbv⟩
  refine ⟨asked, (commands_keep_to_their_files asked _ tree []).unchanged fun address owned => ?_⟩
  cases owned with
  | staged command => cases command
  | generated command loaded free leads =>
      cases command
      exact absurd (free (by decide)) (by decide)

/-- Not every failure is reported with the exit code 1: here the directory to inspect has
a name of one byte that is no text. -/
theorem inspection_breaks_off :
    ¬ ∀ (filters : FilterReader) (tree : FileTree) (environment : Environment)
      (arguments : List Argument) (invocation : Invocation), Accepted arguments invocation →
        Fails tree environment invocation →
          (respond filters tree environment arguments).code = 1 := by
  intro reported
  let invocation : Invocation := ⟨none, none, some [0xff], some .inspect⟩
  have asked : Accepted ["inspect", "--dir", [0xff]] invocation :=
    ⟨[(.program, []), (.inspect, [(.dir, [0xff])])], by cbv, by cbv⟩
  obtain ⟨fails, -, code, -⟩ :=
    execute_of_breaksOff .directives (breaksOff_of_dir (by decide) : BreaksOff .empty [] invocation)
  have wrong := reported .directives .empty [] _ _ asked fails
  rw [respond_of_accepted _ asked, code] at wrong
  cases wrong

end Cli

end RunExchange
