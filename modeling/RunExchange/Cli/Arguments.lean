import RunExchange.Files.Path
/-!
# Cli.Arguments -- what a command line asks for

An argument is a sequence of bytes.  The words of the program are texts, and so is
a level of the log; a path is whatever bytes stand in its argument.

A command line is a sequence of levels: the program, a command, and for `config`
a command of its own.  Each level has its options; three options may stand at
every level, and the deepest level that states one decides.  An option is
written `--name value` or `--name=value`, at most once in a level.

The arguments are read from left to right.  A request for help or for the
version is granted as soon as it is met; anything unknown, missing or repeated
before it refuses the whole line.  A value that was given as a separate argument
is only looked at when the next option or the end of the level comes.
-/

namespace RunExchange.Cli

set_option autoImplicit false

abbrev Argument := List UInt8

/-- The program and its commands. -/
inductive Level
  | program
  | inspect
  | stage
  | collect
  | config
  | validate
  | generate
deriving DecidableEq

/-- The options. -/
inductive Flag
  | config
  | logLevel
  | dir
  | request
  | configFile
  | output
  | force
deriving DecidableEq

namespace Flag

def word : Flag → String
  | .config => "config"
  | .logLevel => "log-level"
  | .dir => "dir"
  | .request => "request"
  | .configFile => "config-file"
  | .output => "output"
  | .force => "force"

def takesValue : Flag → Bool
  | .force => false
  | _ => true

/-- Whether a value may be given: a level of the log is a text, and a path is not
empty. -/
def accepts (flag : Flag) (value : Argument) : Bool :=
  match flag with
  | .logLevel => (Text.ofUtf8? value).isSome
  | .force => true
  | _ => !value.isEmpty

/-- The options of every level. -/
def everywhere : List Flag := [.config, .logLevel, .dir]

end Flag

namespace Level

def word : Level → String
  | .program => "channel-exchange"
  | .inspect => "inspect"
  | .stage => "stage"
  | .collect => "collect"
  | .config => "config"
  | .validate => "validate"
  | .generate => "generate"

/-- The commands of a level. -/
def commands : Level → List Level
  | .program => [.inspect, .stage, .collect, .config]
  | .config => [.validate, .generate]
  | _ => []

/-- Whether a level does nothing without one of its commands. -/
def needsCommand : Level → Bool
  | .config => true
  | _ => false

/-- The options that a level needs. -/
def required : Level → List Flag
  | .stage => [.request]
  | .validate => [.configFile]
  | .generate => [.output]
  | _ => []

def optional : Level → List Flag
  | .generate => [.force]
  | _ => []

def flags (level : Level) : List Flag := Flag.everywhere ++ level.required ++ level.optional

/-- Whether a level can be asked for the version of the program. -/
def hasVersion : Level → Bool
  | .program => true
  | _ => false

def command? (level : Level) (word : Argument) : Option Level :=
  level.commands.find? fun command => Text.utf8 command.word == word

def flag? (level : Level) (word : Argument) : Option Flag :=
  level.flags.find? fun flag => Text.utf8 flag.word == word

end Level

/-- The options that were stated in a level, with their values. -/
abbrev Stated := List (Flag × Argument)

/-- What a command line comes to. -/
inductive Reading
  | usage
  | version
  | refused
  /-- The levels, outermost first, with their options. -/
  | accepted (levels : List (Level × Stated))

/-- Add an option to those that were stated, unless it was stated before or its
value is not accepted. -/
def settle (stated : Stated) (flag : Flag) (value : Argument) : Option Stated :=
  if stated.any (·.1 = flag) || !flag.accepts value then none
  else some (stated ++ [(flag, value)])

/-- Add an option whose value was a separate argument. -/
def settleHeld (stated : Stated) : Option (Flag × Argument) → Option Stated
  | none => some stated
  | some held => settle stated held.1 held.2

/-- Whether an argument has the form of an option. -/
def isFlagLike (argument : Argument) : Bool :=
  (Text.utf8 "-").isPrefixOf argument && argument != Text.utf8 "-"

/-- What stands behind the dashes of a long option. -/
def longOption? (argument : Argument) : Option Argument :=
  if (Text.utf8 "--").isPrefixOf argument then some (argument.drop 2) else none

/-- The byte between the name of an option and its value. -/
def equals : UInt8 := 0x3d

/-- The name of a long option and the value attached to it. -/
def splitLong (option : Argument) : Argument × Option Argument :=
  (option.takeWhile (· != equals), (option.dropWhile (· != equals)).tail?)

/-- Follow the names of commands whose help is wanted.  Help is a command of a
level that has commands. -/
def readHelp (level : Level) : List Argument → Reading
  | [] => .usage
  | word :: rest =>
      match level.command? word with
      | some command => readHelp command rest
      | none =>
          if word = Text.utf8 "help" && !level.commands.isEmpty && rest.isEmpty then .usage
          else .refused

/-- Read short options, of which the first one decides. -/
def readShort (level : Level) (argument : Argument) : Reading :=
  if (Text.utf8 "-h").isPrefixOf argument then .usage
  else if (Text.utf8 "-V").isPrefixOf argument && level.hasVersion then .version
  else .refused

/-- What is awaited in a level. -/
inductive Awaiting
  /-- A command or an option. -/
  | anything
  /-- The value of an option. -/
  | value (flag : Flag)
  /-- Nothing: no level takes other arguments. -/
  | nothing

/-- Read the arguments of a level.  `held` is an option with a value that was not
looked at yet. -/
def readLevel (level : Level) (stated : Stated) (held : Option (Flag × Argument))
    (awaiting : Awaiting) : List Argument → Reading
  | [] =>
      match awaiting, settleHeld stated held with
      | .value _, _ => .refused
      | _, none => .refused
      | _, some stated =>
          if level.needsCommand || level.required.any (fun flag => !stated.any (·.1 = flag)) then
            .refused
          else .accepted [(level, stated)]
  | argument :: rest =>
      match awaiting with
      | .nothing => .refused
      | .value flag =>
          if isFlagLike argument then .refused
          else readLevel level stated (some (flag, argument)) .anything rest
      | .anything =>
          match level.command? argument with
          | some command =>
              match readLevel command [] none .anything rest with
              | .accepted levels =>
                  match settleHeld stated held with
                  | none => .refused
                  | some stated => .accepted ((level, stated) :: levels)
              | reading => reading
          | none =>
              if argument = Text.utf8 "help" && !level.commands.isEmpty then readHelp level rest
              else if argument = Text.utf8 "--" then readLevel level stated held .nothing rest
              else
                match settleHeld stated held with
                | none => .refused
                | some stated =>
                    match longOption? argument with
                    | some option =>
                        let (word, value) := splitLong option
                        match level.flag? word, value with
                        | some flag, some value =>
                            match settle stated flag value with
                            | some stated =>
                                if flag.takesValue then readLevel level stated none .anything rest
                                else .refused
                            | none => .refused
                        | some flag, none =>
                            if flag.takesValue then readLevel level stated none (.value flag) rest
                            else
                              match settle stated flag [] with
                              | some stated => readLevel level stated none .anything rest
                              | none => .refused
                        | none, none =>
                            if word = Text.utf8 "help" then .usage
                            else if word = Text.utf8 "version" && level.hasVersion then .version
                            else .refused
                        | none, some _ => .refused
                    | none => if isFlagLike argument then readShort level argument else .refused

/-! ## Invocations -/

inductive Command
  | inspect
  | stage (request : Path)
  | collect
  | validateConfig (file : Path)
  | generateConfig (output : Path) (force : Bool)
deriving DecidableEq

/-- A command line that was accepted. -/
structure Invocation where
  config : Option Path
  logLevel : Option String
  dir : Option Path
  command : Option Command
deriving DecidableEq

/-- The value of an option in the deepest level that states it. -/
def stated? (levels : List (Level × Stated)) (flag : Flag) : Option Argument :=
  levels.reverse.findSome? fun level => level.2.lookup flag

/-- The command of the innermost level. -/
def command? (levels : List (Level × Stated)) : Option Command :=
  let value := fun flag => (stated? levels flag).getD []
  match levels.getLast? with
  | some (.inspect, _) => some .inspect
  | some (.stage, _) => some (.stage (value .request))
  | some (.collect, _) => some .collect
  | some (.validate, _) => some (.validateConfig (value .configFile))
  | some (.generate, _) =>
      some (.generateConfig (value .output) (stated? levels .force).isSome)
  | _ => none

def Invocation.ofLevels (levels : List (Level × Stated)) : Invocation where
  config := stated? levels .config
  logLevel := (stated? levels .logLevel).bind Text.ofUtf8?
  dir := stated? levels .dir
  command := command? levels

/-- Read the arguments after the name of the program. -/
def read (arguments : List Argument) : Reading :=
  readLevel .program [] none .anything arguments

end RunExchange.Cli
