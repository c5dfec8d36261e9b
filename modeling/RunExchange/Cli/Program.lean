import RunExchange.Cli.Arguments
import RunExchange.Config.Environment
import RunExchange.Exchange.Worker
import RunExchange.Host.Outcome
import RunExchange.Host.Request
import RunExchange.Logging.Filter
/-!
# Cli.Program -- the operator's commands on an exchange directory

`respond` takes the arguments, the environment and the file tree and answers
with everything that the program does: exit code, standard output, errors,
notices, events and the tree afterwards.  What the text of a log level means is
left to a reader of filters.

The configuration is loaded first, whatever the command; then `--dir` overrides
its working directory and the log begins.  `inspect` shows what a worker would
load, `stage` writes a request, `collect` prints the results, `config validate`
loads another configuration and `config generate` writes a sample.

An error is a list of messages, each caused by the next.  A command that fails
prints nothing.  There is one failure without a message: a summary holds the
working directory as a text, and where that is no text `inspect` breaks off.
-/

namespace RunExchange.Cli

set_option autoImplicit false

/-- What stands on standard output. -/
inductive Output
  | nothing
  | usage
  | text (text : String)
deriving DecidableEq

/-- Everything that the program does. -/
structure Response where
  code : Nat
  output : Output
  errors : List String
  notices : List String
  events : List Event
  format : LogFormat
  tree : FileTree

/-- How a command fails. -/
inductive Failure
  /-- Messages, each caused by the next. -/
  | reported (chain : List String)
  /-- The program breaks off in the middle. -/
  | crashed
deriving DecidableEq

namespace Failure

def code : Failure → Nat
  | .reported _ => 1
  | .crashed => 101

def messages : Failure → List String
  | .reported chain => chain
  | .crashed => []

end Failure

/-- Work of a command on the file tree. -/
abbrev Task (α : Type) : Type := Action FileTree Failure α

namespace Task

variable {α : Type}

/-- A result whose error gets a first message. -/
def attempt {ε : Type} (context : String) (chain : ε → List String) (result : Except ε α) :
    Task α :=
  Action.lift (result.mapError fun error => .reported (context :: chain error))

def report (severity : Severity) (message : String) : Task Unit :=
  Action.emit { severity, origin := .commands, message }

/-- Work on the directory store of a layout. -/
def onStore (layout : Layout) (action : Action DirectoryStore ExchangeError α) :
    Action FileTree ExchangeError α := fun tree =>
  let report := action ⟨layout, tree⟩
  ⟨report.result, report.state.tree, report.events⟩

end Task

/-! ## The commands -/

/-- What a worker would load, as a JSON value. -/
def summary (dir : String) (exchange : Exchange) : Json :=
  .object
    [("working_dir", .text dir),
     ("inputs", Document.toJson exchange.inputs),
     ("required_if_connected", Document.toJson exchange.requiredIfConnected),
     ("output_names", Document.toJson exchange.outputNames),
     ("state", Document.toJson exchange.state),
     ("run_number", Document.toJson exchange.runNumber),
     ("defaulted", Json.ofTexts (exchange.defaulted.map Resource.name))]

/-- The warning that a worker would use a default. -/
def unavailable (layout : Layout) (resource : Resource) : Event where
  severity := .warn
  origin := .commands
  message :=
    s!"{resource.name} unavailable at {Text.lossy (layout.path resource)}, worker would use its default"

def inspect (layout : Layout) : Task Json := fun tree =>
  let store : DirectoryStore := ⟨layout, tree⟩
  let exchange := Exchange.load store
  let result :=
    match Text.ofUtf8? layout.workingDir with
    | none => .error .crashed
    | some dir => .ok (summary dir exchange)
  ⟨result, tree, Exchange.loadEvents store ++ exchange.defaulted.map (unavailable layout)⟩

def stage (layout : Layout) (path : Path) : Task String := do
  let tree ← Action.inspect
  let text ← Task.attempt s!"Failed to read request {Text.lossy path}"
    (fun cause => [cause.message]) (tree.readText path)
  let request : Request ← Task.attempt s!"Invalid request document {Text.lossy path}" (fun _ => [])
    (Document.decode text)
  (Task.onStore layout request.stage).mapError fun error =>
    .reported ("Failed to stage exchange files" :: error.chain)
  let dir := Text.lossy layout.workingDir
  Task.report .info s!"Staged run {request.runNumber} in {dir}"
  return s!"Staged {request.inputs.size} input(s) and {request.outputNames.length} output(s) in {dir}"

def collect (layout : Layout) : Task Json := do
  let tree ← Action.inspect
  let outcome ← Task.attempt s!"Failed to collect results from {Text.lossy layout.workingDir}"
    ExchangeError.chain (Outcome.collect (⟨layout, tree⟩ : DirectoryStore))
  Task.report .debug s!"Collected {outcome.outputs.size} output channel(s)"
  return Document.toJson outcome

def validateConfig (environment : Environment) (path : Path) : Task String := do
  let tree ← Action.inspect
  Action.emit (Settings.loading path)
  let settings ← Task.attempt s!"Configuration {Text.lossy path} is invalid" ConfigError.chain
    (Settings.ofFile tree environment Settings.defaultStem path)
  return s!"Configuration is valid (working directory: {Text.lossy settings.layout.workingDir})"

def generateConfig (path : Path) (force : Bool) : Task String := do
  let tree ← Action.inspect
  if tree.holds path && !force then
    Action.fail (.reported [s!"{Text.lossy path} already exists, use --force to overwrite"])
  else
    fun tree =>
      match tree.write path Settings.sample with
      | .error cause =>
          ⟨.error (.reported [s!"Failed to write {Text.lossy path}", cause.message]), tree, []⟩
      | .ok written => ⟨.ok s!"Sample configuration written to {Text.lossy path}", written, []⟩

/-- Carry out a command; without one the usage is printed. -/
def perform (settings : Settings) (environment : Environment) : Option Command → Task Output
  | none => return .usage
  | some .inspect => do return .text ((← inspect settings.layout).pretty ++ "\n")
  | some (.stage request) => do return .text ((← stage settings.layout request) ++ "\n")
  | some .collect => do return .text ((← collect settings.layout).pretty ++ "\n")
  | some (.validateConfig file) => do return .text ((← validateConfig environment file) ++ "\n")
  | some (.generateConfig output force) => do
      return .text ((← generateConfig output force) ++ "\n")

/-! ## The program -/

/-- The notice that a level of the log was not understood. -/
def fallbackNotice (text : String) : String :=
  s!"Invalid log level '{text}', falling back to 'warn'"

/-- Which events a run logs, and the notices about it. -/
def logFilter (filters : FilterReader) (settings : Settings) (stated : Option String) :
    (Event → Bool) × List String :=
  let text := stated.getD settings.logging.level.name
  match filters.read text with
  | some filter => (filter, [])
  | none => (Event.passes .warn, [fallbackNotice text])

/-- The configured level decides unless another one is stated. -/
theorem logFilter_none (filters : FilterReader) (settings : Settings) :
    logFilter filters settings none = (Event.passes settings.logging.level, []) := by
  rw [logFilter, Option.getD_none, filters.read_name]

/-- What is said where a configuration cannot be loaded. -/
def loadContext : Option Path → String
  | some path => s!"Failed to load configuration from {Text.lossy path}"
  | none => "Failed to load configuration from environment"

/-- The configuration of an invocation. -/
def effective (tree : FileTree) (environment : Environment) (invocation : Invocation) :
    Except ConfigError Settings := do
  let settings ← Settings.load tree environment Settings.defaultStem invocation.config
  return { settings with
    layout := { settings.layout with
      workingDir := invocation.dir.getD settings.layout.workingDir } }

/-- The first event of a run. -/
def beginning (settings : Settings) : Event where
  severity := .debug
  origin := .program
  message := s!"Using exchange directory {Text.lossy settings.layout.workingDir}"

def versionText : String := "exchange-cli 0.1.0\n"

section Run

variable (filters : FilterReader) (tree : FileTree) (environment : Environment)

/-- Carry out an invocation. -/
def execute (invocation : Invocation) : Response :=
  match effective tree environment invocation with
  | .error error =>
      ⟨1, .nothing, loadContext invocation.config :: error.chain, [], [], .text, tree⟩
  | .ok settings =>
      let (filter, notices) := logFilter filters settings invocation.logLevel
      let report := perform settings environment invocation.command tree
      let events := (beginning settings :: report.events).filter filter
      match report.result with
      | .error failure =>
          ⟨failure.code, .nothing, failure.messages, notices, events, settings.logging.format,
            report.state⟩
      | .ok output => ⟨0, output, [], notices, events, settings.logging.format, report.state⟩

/-- What the program does with its arguments. -/
def respond (arguments : List Argument) : Response :=
  match read arguments with
  | .usage => ⟨0, .usage, [], [], [], .text, tree⟩
  | .version => ⟨0, .text versionText, [], [], [], .text, tree⟩
  | .refused => ⟨2, .nothing, [], [], [], .text, tree⟩
  | .accepted levels => execute filters tree environment (.ofLevels levels)

end Run

end RunExchange.Cli
