import RunExchange.Cli.Program
/-!
# Main -- the program on a real file system

Everything is decided by `Cli.respond`.  Here the files that an invocation may
touch are taken into a tree, its answer is printed, and the files that it
changed are written.  Events, notices and errors go to standard error, so that
standard output holds the answer alone.

Arguments are handed over as texts here, and files are opened by texts, so every
path is one.
-/

namespace RunExchange.Cli

set_option autoImplicit false

/-! ## Files -/

/-- The error number of reading a directory as a file. -/
def directoryCode : UInt32 := 21

/-- What a path of the file system holds. -/
def probe (path : Path) : IO (Option Entry) := do
  try
    return some (.file (← IO.FS.readBinFile (Text.lossy path)))
  catch
    | .inappropriateType _ code _ =>
        return if code = directoryCode then some .directory else none
    | _ => return none

/-- The address of a sequence of names that starts at a directory. -/
def addressFrom (start : Address) (names : List Path) : Address :=
  names.foldl
    (fun here (name : Path) =>
      if name = "." then here else if name = ".." then here.dropLast else here ++ [name])
    start

/-- Take a path and the directories on the way to it into a tree. -/
def observe (tree : FileTree) (path : Path) : IO FileTree :=
  let names := Path.components path
  let top := if Path.isAbsolute path then [Path.slash] else []
  (List.range names.length).foldlM
    (fun tree count => do
      let way := names.take (count + 1)
      match ← probe (top ++ [Path.slash].intercalate way) with
      | none => return tree
      | some entry => return tree.install (addressFrom (tree.start path) way) entry)
    tree

/-- The paths that an invocation names itself. -/
def Invocation.paths (invocation : Invocation) : List Path :=
  invocation.config.toList ++
    match invocation.command with
    | some (.stage request) => [request]
    | some (.validateConfig file) => [file]
    | some (.generateConfig output _) => [output]
    | _ => []

/-- The files that an invocation may touch. -/
def snapshot (environment : Environment) (invocation : Invocation) : IO FileTree := do
  let current := Path.components (← IO.currentDir).toString
  let empty := { FileTree.empty.install current .directory with current }
  let named ← invocation.paths.foldlM observe empty
  match effective named environment invocation with
  | .error _ => return named
  | .ok settings => (Resource.all.map settings.layout.path).foldlM observe named

/-- Write the files that differ between two trees. -/
def commit (before after : FileTree) : IO Unit :=
  after.entries.forM fun (address, entry) => do
    match entry with
    | .directory => return
    | .file content =>
        unless before.get? address = some entry do
          IO.FS.writeBinFile (Text.lossy (Path.slash :: [Path.slash].intercalate address)) content

/-- The variables that override settings. -/
def readEnvironment : IO Environment :=
  ["WORKING_DIR", "LOG_LEVEL", "LOG_FORMAT"].filterMapM fun setting => do
    let name := Settings.defaultStem ++ "_" ++ setting
    return (← IO.getEnv name).map fun value => (name, value.toUTF8)

/-! ## Answers -/

def usageText : String :=
  "Usage: channel-exchange [--config <FILE>] [--log-level <LEVEL>] [--dir <DIR>] [COMMAND]\n\n" ++
  "Commands:\n" ++
  "  inspect                                           Show what a worker would load\n" ++
  "  stage --request <FILE>                            Write the initial documents of a run\n" ++
  "  collect                                           Print the results of a run\n" ++
  "  config validate --config-file <FILE>              Check a configuration\n" ++
  "  config generate --output <FILE> [--force]         Write a sample configuration\n"

/-- An error with its causes. -/
def errorText : List String → String
  | [] => ""
  | [message] => s!"Error: {message}\n"
  | message :: causes =>
      s!"Error: {message}\n\nCaused by:\n" ++ String.join (causes.map fun cause => s!"    {cause}\n")

def Output.write : Output → IO Unit
  | .nothing => return
  | .usage => IO.print usageText
  | .text content => IO.print content

/-- Print an answer, and return the exit code. -/
def Response.print (response : Response) : IO UInt32 := do
  response.notices.forM fun notice => IO.eprintln notice
  response.events.forM fun event => IO.eprintln (event.lineIn response.format)
  response.output.write
  if response.code = 2 then IO.eprint ("error: these arguments are not understood\n\n" ++ usageText)
  IO.eprint (errorText response.errors)
  return UInt32.ofNat response.code

end RunExchange.Cli

open RunExchange Cli in
def main (texts : List String) : IO UInt32 := do
  let arguments := texts.map Text.utf8
  let environment ← readEnvironment
  let tree ←
    match read arguments with
    | .accepted levels => snapshot environment (.ofLevels levels)
    | _ => pure FileTree.empty
  let response := respond .directives tree environment arguments
  commit tree response.tree
  response.print
