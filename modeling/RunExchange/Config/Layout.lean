import RunExchange.Config.Error
import RunExchange.Files.Path
import RunExchange.Text.Blank
/-!
# Config.Layout -- in which files the documents lie

A layout is a working directory and a file name for each of the nine resources.
It is valid when every name is a plain one -- not blank, without a separator of
either kind, neither `.` nor `..` -- and no two resources share a name; the
working directory plays no part in that.  `validate` goes through the resources
in order and reports the first problem.

The path of a resource is its file name joined to the working directory.
-/

namespace RunExchange

set_option autoImplicit false

structure Layout where
  workingDir : Path
  fileName : Resource → String

namespace Layout

def defaultName : Resource → String
  | .inputValues => "pythonInput.rced"
  | .requiredIfConnected => "pythonInputReqIfConnected.rced"
  | .stateVariables => "pythonStateVariables.rces"
  | .declaredOutputs => "outputs.rceo"
  | .runNumber => "pythonRunNumber.rcen"
  | .outputValues => "pythonOutput.rced"
  | .closeOutputs => "pythonCloseOutputChannelsList.rced"
  | .stateOutput => "pythonStateOutput.rces"
  | .indefiniteOutputs => "pythonSetOutputsIndefinit.rceo"

/-- The default file names in a directory. -/
def inDir (dir : Path) : Layout := ⟨dir, defaultName⟩

/-- The default file names in the current directory. -/
def standard : Layout := inDir "."

instance : Inhabited Layout := ⟨standard⟩

instance : DecidableEq Layout := fun a b =>
  decidable_of_iff
    (a.workingDir = b.workingDir ∧ ∀ resource, a.fileName resource = b.fileName resource)
    ⟨fun h => by cases a; cases b; simp_all [funext_iff], fun h => by simp [h]⟩

/-- Two layouts with the same file names in working directories that are spelled
alike. -/
def Alike (a b : Layout) : Prop :=
  Path.Alike a.workingDir b.workingDir ∧ ∀ resource, a.fileName resource = b.fileName resource

instance (a b : Layout) : Decidable (Alike a b) :=
  inferInstanceAs (Decidable (_ ∧ ∀ resource, a.fileName resource = b.fileName resource))

/-- The layout with another file name for one resource. -/
def rename (layout : Layout) (resource : Resource) (name : String) : Layout :=
  { layout with fileName := fun other => if other = resource then name else layout.fileName other }

/-- The path of a resource. -/
def path (layout : Layout) (resource : Resource) : Path :=
  Path.join layout.workingDir (layout.fileName resource)

/-! ## Validity -/

/-- A name that is one component of a path and not blank. -/
def PlainName (name : String) : Prop :=
  Text.isBlank name = false ∧ '/' ∉ name.toList ∧ '\\' ∉ name.toList ∧ name ≠ "." ∧ name ≠ ".."

/-- Every file name is plain, and no two resources share one. -/
def Valid (layout : Layout) : Prop :=
  (∀ resource, PlainName (layout.fileName resource)) ∧
    ∀ a b, layout.fileName a = layout.fileName b → a = b

def domain : String := "files"

/-- Refuse a blank value. -/
def checkRequired (domain field value : String) : Except ConfigError Unit :=
  if Text.isBlank value then .error (.invalid domain (.blank field)) else .ok ()

/-- Refuse a value that is no plain file name. -/
def checkFileName (domain field value : String) : Except ConfigError Unit := do
  checkRequired domain field value
  if value.toList.contains '/' || value.toList.contains '\\' || value == "." || value == ".." then
    .error (.invalid domain (.notPlain field value))

/-- Check the names of the resources in turn, those in `seen` being taken. -/
def validateFrom (layout : Layout) (seen : List String) : List Resource → Except ConfigError Unit
  | [] => .ok ()
  | resource :: rest => do
      let name := layout.fileName resource
      checkFileName domain resource.name name
      if seen.contains name then .error (.invalid domain (.reused resource name))
      else layout.validateFrom (name :: seen) rest

/-- Report the first problem of a layout. -/
def validate (layout : Layout) : Except ConfigError Unit :=
  layout.validateFrom [] Resource.all

end Layout

end RunExchange
