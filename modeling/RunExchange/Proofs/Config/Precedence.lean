import Mathlib.Tactic
import RunExchange.Config.Environment
import RunExchange.Proofs.Config.Validity
import RunExchange.Proofs.Sequence
import RunExchange.Proofs.Text.Cut
/-!
# Proofs.Config.Precedence -- which error is reported, and which setting counts

A configuration may fail for four reasons, and the first of them is reported: the
file cannot be read, its text is no document, a variable offends, the layout of
the document is not valid.  Variables offend in their own order (`Offends`,
`IsFirstOffence`).  Without a failure the settings are those of the document but
for the variables that are set (`OverriddenBy`), and no variable reaches a file
name.  So the layout is judged as it stands in the document
(`configuration_precedence`).

Without a file the default document is taken, which is valid in any working
directory: nothing but a variable can offend.
-/

namespace RunExchange

set_option autoImplicit false

/-! ## Words in any case -/

/-- The text is a word for the severity. -/
def Severity.NamedBy (severity : Severity) (text : String) : Prop :=
  foldCase text = severity.name ∨ severity = .warn ∧ foldCase text = "warning"

/-- The text is the word for the format. -/
def LogFormat.NamedBy (format : LogFormat) (text : String) : Prop :=
  foldCase text = format.name

theorem Severity.ofName?_eq_some_iff {text : String} {severity : Severity} :
    ofName? text = some severity ↔ text = severity.name := by
  constructor
  · intro named
    unfold ofName? at named
    split at named <;> cases named <;> rfl
  · rintro rfl
    exact ofName?_name severity

theorem Severity.ofText?_eq_some_iff {text : String} {severity : Severity} :
    ofText? text = some severity ↔ severity.NamedBy text := by
  rw [ofText?, NamedBy]
  split
  · next warning => cases severity <;> simp [warning, name]
  · next other => simp [ofName?_eq_some_iff, other]

theorem LogFormat.ofName?_eq_some_iff {text : String} {format : LogFormat} :
    ofName? text = some format ↔ text = format.name := by
  constructor
  · intro named
    unfold ofName? at named
    split at named <;> cases named <;> rfl
  · rintro rfl
    exact ofName?_name format

theorem LogFormat.ofText?_eq_some_iff {text : String} {format : LogFormat} :
    ofText? text = some format ↔ format.NamedBy text :=
  ofName?_eq_some_iff

/-- The place of an offence in the order in which variables are looked at. -/
def VariableError.rank : VariableError → Nat
  | .blankWorkingDir => 0
  | .unknownLevel _ => 1
  | .unknownFormat _ => 2

namespace Settings

/-! ## Variables -/

/-- A variable is set to a text if it is set to the bytes of the text. -/
theorem override?_eq_some_iff {environment : Environment} {stem setting text : String} :
    override? environment stem setting = some text ↔
      environment.lookup (stem ++ "_" ++ setting) = some text.toUTF8 := by
  rw [override?, Environment.text?]
  constructor
  · intro read
    obtain ⟨bytes, set, valid⟩ := Option.bind_eq_some_iff.1 read
    rw [set, Text.toUTF8_of_fromUTF8? valid]
  · intro set
    rw [set, Option.bind_some, Text.fromUTF8?_toUTF8]

/-- A variable is set to a text that cannot be used. -/
inductive Offends (environment : Environment) (stem : String) : VariableError → Prop
  | workingDir {text : String} (set : override? environment stem "WORKING_DIR" = some text)
      (blank : Text.isBlank text = true) : Offends environment stem .blankWorkingDir
  | level {text : String} (set : override? environment stem "LOG_LEVEL" = some text)
      (unknown : ∀ severity : Severity, ¬ severity.NamedBy text) :
      Offends environment stem (.unknownLevel text)
  | format {text : String} (set : override? environment stem "LOG_FORMAT" = some text)
      (unknown : ∀ format : LogFormat, ¬ format.NamedBy text) :
      Offends environment stem (.unknownFormat text)

/-- The offence comes before all others. -/
structure IsFirstOffence (environment : Environment) (stem : String) (offence : VariableError) :
    Prop where
  offends : Offends environment stem offence
  first : ∀ other, Offends environment stem other → offence.rank ≤ other.rank

/-- What a variable names, or what there was before if the variable is not set. -/
def Chosen {α : Type} (NamedBy : α → String → Prop) (given : Option String)
    (old new : α) : Prop :=
  match given with
  | none => new = old
  | some text => NamedBy new text

/-- The settings are those of a document but for the variables that are set. -/
structure OverriddenBy (environment : Environment) (stem : String) (document settings : Settings) :
    Prop where
  workingDir : settings.layout.workingDir =
    ((override? environment stem "WORKING_DIR").map Text.utf8).getD document.layout.workingDir
  fileName : settings.layout.fileName = document.layout.fileName
  level : Chosen Severity.NamedBy (override? environment stem "LOG_LEVEL")
    document.logging.level settings.logging.level
  format : Chosen LogFormat.NamedBy (override? environment stem "LOG_FORMAT")
    document.logging.format settings.logging.format

/-! ## One variable -/

section Choice

variable {α : Type} (NamedBy : α → String → Prop) {read : String → Option α}

/-- Replace a value by what a variable names, if the variable is set. -/
def choose (read : String → Option α) (unknown : String → VariableError)
    (given : Option String) (old : α) : Except ConfigError α :=
  match given with
  | none => .ok old
  | some text =>
      match read text with
      | none => .error (.environment (unknown text))
      | some value => .ok value

/-- Either the variable is set and names nothing, or there is a choice. -/
theorem choose_cases (reads : ∀ text value, read text = some value ↔ NamedBy value text)
    (unknown : String → VariableError) (given : Option String) (old : α) :
    (∃ text, given = some text ∧ (∀ value, ¬ NamedBy value text) ∧
        choose read unknown given old = .error (.environment (unknown text))) ∨
      ∃ new, Chosen NamedBy given old new ∧ choose read unknown given old = .ok new := by
  cases given with
  | none => exact .inr ⟨old, rfl, rfl⟩
  | some text =>
      rw [choose]
      cases found : read text with
      | none =>
          refine .inl ⟨text, rfl, fun value named => ?_, rfl⟩
          rw [(reads text value).2 named] at found
          cases found
      | some value => exact .inr ⟨value, (reads text value).1 found, rfl⟩

end Choice

variable (environment : Environment) (stem : String)

/-- The working directory of a variable replaces that of the settings. -/
theorem overrideWorkingDir_cases (settings : Settings) :
    (Offends environment stem .blankWorkingDir ∧
        overrideWorkingDir environment stem settings =
          .error (.environment .blankWorkingDir)) ∨
      ¬ Offends environment stem .blankWorkingDir ∧
        overrideWorkingDir environment stem settings = .ok { settings with
          layout := { settings.layout with
            workingDir := ((override? environment stem "WORKING_DIR").map Text.utf8).getD
              settings.layout.workingDir } } := by
  rw [overrideWorkingDir]
  cases set : override? environment stem "WORKING_DIR" with
  | none =>
      refine .inr ⟨fun offends => ?_, rfl⟩
      cases offends with
      | workingDir other =>
          rw [set] at other
          cases other
  | some text =>
      dsimp only
      cases blank : Text.isBlank text with
      | true => exact .inl ⟨.workingDir set blank, if_pos rfl⟩
      | false =>
          refine .inr ⟨fun offends => ?_, if_neg Bool.false_ne_true⟩
          cases offends with
          | workingDir other white =>
              rw [set] at other
              cases other
              rw [blank] at white
              cases white

theorem overrideLevel_eq (settings : Settings) :
    overrideLevel environment stem settings =
      (choose Severity.ofText? .unknownLevel (override? environment stem "LOG_LEVEL")
        settings.logging.level).map
        fun level => { settings with logging := { settings.logging with level } } := by
  rw [overrideLevel]
  cases override? environment stem "LOG_LEVEL" with
  | none => rfl
  | some text =>
      dsimp only
      rw [choose, Severity.ofText]
      cases Severity.ofText? text <;> rfl

theorem overrideFormat_eq (settings : Settings) :
    overrideFormat environment stem settings =
      (choose LogFormat.ofText? .unknownFormat (override? environment stem "LOG_FORMAT")
        settings.logging.format).map
        fun format => { settings with logging := { settings.logging with format } } := by
  rw [overrideFormat]
  cases override? environment stem "LOG_FORMAT" with
  | none => rfl
  | some text =>
      dsimp only
      rw [choose, LogFormat.ofText]
      cases LogFormat.ofText? text <;> rfl

/-! ## All variables -/

/-- **The first offence is reported, or the settings are overridden.** -/
theorem applyOverrides_cases (document : Settings) :
    (∃ offence, IsFirstOffence environment stem offence ∧
        applyOverrides environment stem document = .error (.environment offence)) ∨
      (∀ offence, ¬ Offends environment stem offence) ∧
        ∃ settings, OverriddenBy environment stem document settings ∧
          applyOverrides environment stem document = .ok settings := by
  simp only [applyOverrides, overrideLevel_eq, overrideFormat_eq]
  obtain ⟨blank, refused⟩ | ⟨filled, entered⟩ :=
    overrideWorkingDir_cases environment stem document
  · exact .inl ⟨_, ⟨blank, fun _ _ => Nat.zero_le _⟩, by rw [refused]; rfl⟩
  simp only [entered, bind, Except.bind]
  obtain ⟨text, set, unknown, refused⟩ | ⟨level, levelChosen, chose⟩ :=
    choose_cases Severity.NamedBy (fun _ _ => Severity.ofText?_eq_some_iff)
      .unknownLevel (override? environment stem "LOG_LEVEL") document.logging.level
  · refine .inl ⟨_, ⟨.level set unknown, fun other offends => ?_⟩, by rw [refused]; rfl⟩
    cases offends with
    | workingDir given blank => exact absurd (.workingDir given blank) filled
    | level => exact Nat.le_refl _
    | format => exact Nat.le_succ _
  simp only [chose, Except.map]
  have known : ∀ text, ¬ Offends environment stem (.unknownLevel text) := by
    intro text offends
    cases offends with
    | level set unknown =>
        rw [set] at levelChosen
        exact unknown level levelChosen
  obtain ⟨text, set, unknown, refused⟩ | ⟨format, formatChosen, chose⟩ :=
    choose_cases LogFormat.NamedBy (fun _ _ => LogFormat.ofText?_eq_some_iff)
      .unknownFormat (override? environment stem "LOG_FORMAT") document.logging.format
  · refine .inl ⟨_, ⟨.format set unknown, fun other offends => ?_⟩, by rw [refused]⟩
    cases offends with
    | workingDir given blank => exact absurd (.workingDir given blank) filled
    | level given unnamed => exact absurd (.level given unnamed) (known _)
    | format => exact Nat.le_refl _
  · rw [chose]
    refine .inr ⟨fun offence offends => ?_, _, ?_, rfl⟩
    · cases offends with
      | workingDir given blank => exact filled (.workingDir given blank)
      | level given unnamed => exact known _ (.level given unnamed)
      | format given unnamed =>
          rw [given] at formatChosen
          exact unnamed format formatChosen
    · exact ⟨rfl, rfl, levelChosen, formatChosen⟩

/-- How a configuration that starts from a document ends. -/
structure EndsFrom (document : Settings) (result : Except ConfigError Settings) : Prop where
  /-- If some variable offends, the first offence is the error. -/
  offended : ∀ offence, Offends environment stem offence →
    ∃ first, IsFirstOffence environment stem first ∧ result = .error (.environment first)
  /-- If none does, the layout of the document is judged. -/
  invalid : (∀ offence, ¬ Offends environment stem offence) →
    ∀ error, document.layout.validate = .error error →
      result = .error error ∧ ∃ problem, error = .invalid Layout.domain problem
  loaded : (∀ offence, ¬ Offends environment stem offence) →
    document.layout.validate = .ok () →
      ∃ settings, result = .ok settings ∧ OverriddenBy environment stem document settings

variable {environment stem} in
/-- Overridden settings are judged by their layout. -/
theorem complete_of_applied {document settings : Settings}
    (applied : applyOverrides environment stem document = .ok settings) :
    complete environment stem document = settings.layout.validate.map fun _ => settings := by
  rw [complete, applied]
  show (do settings.validate; return settings : Except ConfigError Settings) = _
  rw [validate]
  cases settings.layout.validate <;> rfl

theorem endsFrom_complete (document : Settings) :
    EndsFrom environment stem document (complete environment stem document) := by
  obtain ⟨first, isFirst, refused⟩ | ⟨harmless, settings, overridden, applied⟩ :=
    applyOverrides_cases environment stem document
  · have ended : complete environment stem document = .error (.environment first) := by
      rw [complete, refused]
      rfl
    exact ⟨fun _ _ => ⟨first, isFirst, ended⟩, fun harmless => absurd isFirst.offends (harmless _),
      fun harmless => absurd isFirst.offends (harmless _)⟩
  · have judged : complete environment stem document =
        document.layout.validate.map fun _ => settings := by
      rw [complete_of_applied applied, Layout.validate_of_fileName overridden.fileName]
    constructor
    case offended => exact fun offence offends => absurd offends (harmless offence)
    case invalid =>
      intro _ error refused
      rw [judged, refused]
      obtain ⟨-, problem, -, blamed⟩ := Layout.exists_problem_of_validate refused
      exact ⟨rfl, problem, blamed⟩
    case loaded =>
      intro _ passed
      rw [judged, passed]
      exact ⟨settings, rfl, overridden⟩

/-- Two environments set the variables of the settings to the same texts. -/
def SameOverrides (other : Environment) : Prop :=
  ∀ setting ∈ ["WORKING_DIR", "LOG_LEVEL", "LOG_FORMAT"],
    override? other stem setting = override? environment stem setting

variable {environment stem} in
theorem complete_of_same {other : Environment} (same : SameOverrides environment stem other)
    (document : Settings) : complete other stem document = complete environment stem document := by
  have workingDir := same "WORKING_DIR" (by decide)
  have level := same "LOG_LEVEL" (by decide)
  have format := same "LOG_FORMAT" (by decide)
  simp only [complete, applyOverrides, overrideWorkingDir, overrideLevel, overrideFormat,
    workingDir, level, format]

/-- No variable of the settings is set. -/
def NoOverrides : Prop :=
  ∀ setting ∈ ["WORKING_DIR", "LOG_LEVEL", "LOG_FORMAT"], override? environment stem setting = none

variable {environment stem} in
theorem complete_of_noOverrides (unset : NoOverrides environment stem) (document : Settings) :
    complete environment stem document = document.layout.validate.map fun _ => document := by
  have same : SameOverrides [] stem environment := fun setting here => unset setting here
  rw [complete_of_same same]
  exact complete_of_applied rfl

/-! ## Files and defaults -/

theorem ofFile_of_unreadable {tree : FileTree} {path : Path} {cause : IoError}
    (failed : tree.readText path = .error cause) :
    ofFile tree environment stem path = .error (.unreadable cause) := by
  rw [ofFile, failed]
  rfl

theorem ofFile_of_text {tree : FileTree} {path : Path} {text : String}
    (read : tree.readText path = .ok text) :
    ofFile tree environment stem path =
      match ofText? text with
      | none => .error .unparsable
      | some document => complete environment stem document := by
  rw [ofFile, read]
  rfl

/-- How the configuration of a file ends. -/
structure FileEndsFrom (tree : FileTree) (path : Path) (result : Except ConfigError Settings) :
    Prop where
  unreadable : ∀ cause, tree.readText path = .error cause → result = .error (.unreadable cause)
  unparsable : ∀ text, tree.readText path = .ok text → ofText? text = none →
    result = .error .unparsable
  document : ∀ text document, tree.readText path = .ok text → ofText? text = some document →
    EndsFrom environment stem document result

theorem fileEndsFrom_ofFile (tree : FileTree) (path : Path) :
    FileEndsFrom environment stem tree path (ofFile tree environment stem path) where
  unreadable cause failed := ofFile_of_unreadable environment stem failed
  unparsable text read refused := by rw [ofFile_of_text environment stem read, refused]
  document text document read parsed := by
    rw [ofFile_of_text environment stem read, parsed]
    exact endsFrom_complete environment stem document

/-- The standard settings cannot be made invalid. -/
theorem exists_offence_of_ofEnvironment {error : ConfigError}
    (refused : ofEnvironment environment stem = .error error) :
    ∃ offence, error = .environment offence := by
  have ends := endsFrom_complete environment stem standard
  rw [← ofEnvironment, refused] at ends
  by_cases harmless : ∀ offence, ¬ Offends environment stem offence
  · obtain ⟨settings, loaded, -⟩ := ends.loaded harmless (by decide)
    cases loaded
  · push Not at harmless
    obtain ⟨offence, offends⟩ := harmless
    obtain ⟨first, -, ended⟩ := ends.offended offence offends
    cases ended
    exact ⟨first, rfl⟩

/-- No variable offends in a configuration that was completed.  It is the document but
for the variables that are set, and has passed the check of its layout. -/
theorem overriddenBy_of_complete {document settings : Settings}
    (completed : complete environment stem document = .ok settings) :
    (∀ offence, ¬ Offends environment stem offence) ∧
      OverriddenBy environment stem document settings ∧ settings.layout.Valid := by
  obtain ⟨first, -, refused⟩ | ⟨harmless, overridden, isOverridden, applied⟩ :=
    applyOverrides_cases environment stem document
  · rw [complete, refused] at completed
    cases completed
  · rw [complete_of_applied applied] at completed
    obtain ⟨_, checked, rfl⟩ := Except.map_eq_ok_iff.1 completed
    exact ⟨harmless, isOverridden, (Layout.validate_eq_ok_iff _).1 checked⟩

/-- The document that a configuration starts from: the default one without a file. -/
inductive StartsFrom (tree : FileTree) : Option Path → Settings → Prop
  | standard : StartsFrom tree none standard
  | file {path : Path} {text : String} {document : Settings} (read : tree.readText path = .ok text)
      (parsed : ofText? text = some document) : StartsFrom tree (some path) document

/-- A configuration starts from one document at most. -/
theorem StartsFrom.eq {tree : FileTree} {path : Option Path} {document other : Settings}
    (here : StartsFrom tree path document) (there : StartsFrom tree path other) :
    document = other := by
  cases here with
  | standard => cases there; rfl
  | file read parsed =>
      cases there with
      | file readAgain parsedAgain =>
          rw [read] at readAgain
          cases readAgain
          rw [parsed] at parsedAgain
          exact Option.some.inj parsedAgain

/-- Loading completes the document that it starts from. -/
theorem load_eq_ok_iff {tree : FileTree} {path : Option Path} {settings : Settings} :
    load tree environment stem path = .ok settings ↔
      ∃ document, StartsFrom tree path document ∧
        complete environment stem document = .ok settings := by
  constructor
  · intro loaded
    cases path with
    | none => exact ⟨standard, .standard, loaded⟩
    | some path =>
        rw [load, ofFile] at loaded
        obtain ⟨text, read, loaded⟩ := Except.bind_eq_ok_iff.1 loaded
        split at loaded
        · cases loaded
        · next document parsed =>
            exact ⟨document, .file (Except.mapError_eq_ok_iff.1 read) parsed, loaded⟩
  · rintro ⟨document, starts, completed⟩
    cases starts with
    | standard => exact completed
    | file read parsed =>
        rw [load, ofFile_of_text environment stem read, parsed]
        exact completed

/-- Every configuration that was loaded has passed the check of its layout. -/
theorem valid_of_load {tree : FileTree} {path : Option Path} {settings : Settings}
    (loaded : load tree environment stem path = .ok settings) : settings.layout.Valid := by
  obtain ⟨document, -, completed⟩ := (load_eq_ok_iff environment stem).1 loaded
  exact (overriddenBy_of_complete environment stem completed).2.2

/-- **The first failure is reported, and the variables that are set override the
document**: with a file as without one, where the document is the default and only a
variable can offend.  No other variable matters. -/
theorem configuration_precedence :
    (∀ tree path, FileEndsFrom environment stem tree path (ofFile tree environment stem path)) ∧
      EndsFrom environment stem standard (ofEnvironment environment stem) ∧
      (∀ error, ofEnvironment environment stem = .error error →
        ∃ offence, error = .environment offence) ∧
      (∀ setting text, override? environment stem setting = some text ↔
        environment.lookup (stem ++ "_" ++ setting) = some text.toUTF8) ∧
      ∀ other, SameOverrides environment stem other →
        (∀ tree path, ofFile tree other stem path = ofFile tree environment stem path) ∧
          ofEnvironment other stem = ofEnvironment environment stem := by
  refine ⟨fileEndsFrom_ofFile environment stem, endsFrom_complete environment stem standard,
    fun error refused => exists_offence_of_ofEnvironment environment stem refused,
    fun setting text => override?_eq_some_iff, fun other same => ⟨fun tree path => ?_, ?_⟩⟩
  · rw [ofFile, ofFile]
    simp only [complete_of_same same]
  · exact complete_of_same same standard

end Settings

end RunExchange
