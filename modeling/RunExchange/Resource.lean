/-!
# Resource -- the documents that host and worker exchange

A run has nine documents: five that the host writes before the worker starts
(`initial`) and four that the worker writes when it ends (`results`).  Each has
a name that is used in logs, errors and configuration files.
-/

namespace RunExchange

set_option autoImplicit false

inductive Resource
  /-- The value of each supplied input. -/
  | inputValues
  /-- The inputs that need a value only if they are connected. -/
  | requiredIfConnected
  /-- The state that earlier runs left. -/
  | stateVariables
  /-- The outputs that the worker may write. -/
  | declaredOutputs
  | runNumber
  /-- The values emitted on each output. -/
  | outputValues
  /-- The outputs that receive no further values. -/
  | closeOutputs
  /-- The state after the run. -/
  | stateOutput
  /-- The outputs left without a value on purpose. -/
  | indefiniteOutputs
deriving DecidableEq

namespace Resource

/-- The documents that the worker reads, in reading order. -/
def initial : List Resource :=
  [.inputValues, .requiredIfConnected, .stateVariables, .declaredOutputs, .runNumber]

/-- The documents that the worker writes, in writing order. -/
def results : List Resource :=
  [.outputValues, .closeOutputs, .stateOutput, .indefiniteOutputs]

def all : List Resource := initial ++ results

def name : Resource → String
  | .inputValues => "input_values"
  | .requiredIfConnected => "required_if_connected"
  | .stateVariables => "state_variables"
  | .declaredOutputs => "declared_outputs"
  | .runNumber => "run_number"
  | .outputValues => "output_values"
  | .closeOutputs => "close_outputs"
  | .stateOutput => "state_output"
  | .indefiniteOutputs => "indefinite_outputs"

/-- The resource of a name. -/
def ofName? (text : String) : Option Resource :=
  all.find? fun resource => resource.name == text

theorem mem_all (resource : Resource) : resource ∈ all := by
  cases resource <;> decide

theorem name_inj {a b : Resource} (h : a.name = b.name) : a = b := by
  cases a <;> cases b <;> first | rfl | exact absurd h (by decide)

theorem ofName?_name (resource : Resource) : ofName? resource.name = some resource := by
  cases resource <;> rfl

instance (p : Resource → Prop) [DecidablePred p] : Decidable (∀ resource, p resource) :=
  decidable_of_iff (∀ resource ∈ all, p resource)
    ⟨fun h resource => h resource (mem_all resource), fun h resource _ => h resource⟩

end Resource

end RunExchange
