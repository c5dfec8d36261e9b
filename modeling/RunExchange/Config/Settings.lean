import RunExchange.Config.Layout
import RunExchange.Logging.Settings
import RunExchange.Yaml.Node
/-!
# Config.Settings -- the configuration and its document

The configuration has two sections, the file layout and the logging settings,
each with a default for every field.  A configuration document is a mapping of
sections, a section a mapping of fields; an empty scalar stands for an empty
mapping.  A document overrides the fields that it names, in any order.  Other
keys are ignored, whatever stands under them; a known key may not be repeated.

A file name and the working directory are the text of any scalar, as written; a
level and a format are exact names.
-/

namespace RunExchange

set_option autoImplicit false

open Yaml (Node)

namespace LoggingSettings

def domain : String := "logging"

/-- The error that blames the logging settings. -/
def problem (message : String) : ConfigError := .invalid domain (.other message)

/-- Every combination of logging settings is valid. -/
def validate (_ : LoggingSettings) : Except ConfigError Unit := .ok ()

end LoggingSettings

/-- The whole configuration. -/
structure Settings where
  layout : Layout
  logging : LoggingSettings
deriving DecidableEq

namespace Settings

def standard : Settings := ⟨.standard, {}⟩

instance : Inhabited Settings := ⟨standard⟩

/-- Settings that are the standard ones, however their working directory is
spelled. -/
def IsStandard (settings : Settings) : Prop :=
  Layout.Alike settings.layout Layout.standard ∧ settings.logging = {}

instance (settings : Settings) : Decidable settings.IsStandard :=
  inferInstanceAs (Decidable (_ ∧ _))

/-- Check the domains in turn. -/
def validate (settings : Settings) : Except ConfigError Unit := do
  settings.layout.validate
  settings.logging.validate

/-! ## Reading a document -/

/-- The members of a mapping, an empty scalar having none. -/
def members? (document node : Node) : Option (List (Node × Node)) := do
  match ← document.follow node with
  | .mapping _ members => some members
  | .scalar _ "" true => some []
  | _ => none

/-- The text of a scalar. -/
def text? (document node : Node) : Option String := do
  match ← document.follow node with
  | .scalar _ text _ => some text
  | _ => none

/-- The name that a scalar gives: that of its tag, which then is all it has, or
its text if its tag names nothing. -/
def name? (document node : Node) : Option String := do
  match ← document.follow node with
  | .scalar properties text plain =>
      match properties.tag.bind Yaml.Tag.name? with
      | some name =>
          if plain && ["", "~", "null", "Null", "NULL"].contains text then some name else none
      | none => some text
  | _ => none

/-- Go through the members of a mapping: `update` takes over the value of a key,
and answers `none` for a key that it does not know. -/
def readMembers {α : Type} (document : Node) (update : String → Option (Node → α → Option α))
    (seen : List String) (start : α) : List (Node × Node) → Option α
  | [] => some start
  | (key, value) :: rest => do
      let name ← text? document key
      match update name with
      | none => readMembers document update seen start rest
      | some take =>
          if seen.contains name then none
          else readMembers document update (name :: seen) (← take value start) rest

/-- The fields of a layout. -/
def layoutField (document : Node) (name : String) : Option (Node → Layout → Option Layout) :=
  if name = "working_dir" then
    some fun node layout => do
      return { layout with workingDir := Text.utf8 (← text? document node) }
  else
    (Resource.ofName? name).map fun resource node layout => do
      return layout.rename resource (← text? document node)

/-- The fields of the logging settings. -/
def loggingField (document : Node) (name : String) :
    Option (Node → LoggingSettings → Option LoggingSettings) :=
  if name = "level" then
    some fun node logging => do
      return { logging with level := ← Severity.ofName? (← name? document node) }
  else if name = "format" then
    some fun node logging => do
      return { logging with format := ← LogFormat.ofName? (← name? document node) }
  else none

/-- The sections of a configuration. -/
def section? (document : Node) (name : String) : Option (Node → Settings → Option Settings) :=
  if name = "files" then
    some fun node settings => do
      let members ← members? document node
      let layout ← readMembers document (layoutField document) [] Layout.standard members
      return { settings with layout }
  else if name = "logging" then
    some fun node settings => do
      let members ← members? document node
      let logging ← readMembers document (loggingField document) [] {} members
      return { settings with logging }
  else none

/-- The configuration of a document. -/
def ofNode? (document : Node) : Option Settings := do
  readMembers document (section? document) [] standard (← members? document document)

/-- The configuration of a text; one without a document is the default. -/
def ofText? (text : String) : Option Settings := do
  match ← Node.ofText? text with
  | none => some standard
  | some document => ofNode? document

/-! ## Writing a document -/

/-- The default configuration as a document with all its fields. -/
def sample : String :=
  let fields := Resource.all.map fun resource =>
    s!"  {resource.name}: {standard.layout.fileName resource}\n"
  s!"files:\n  working_dir: {Text.lossy standard.layout.workingDir}\n" ++ String.join fields ++
    s!"logging:\n  level: {standard.logging.level.name}\n  format: {standard.logging.format.name}\n"

end Settings

end RunExchange
