import Mathlib.Tactic
import RunExchange.Proofs.Config.Overriding
/-!
# Proofs.Config.WorkingDir -- where the working directory comes from

The working directory of a configuration is that of the variable, or that of the
document if the variable is not set (`workingDir_of_load`).  Either is a text
(`exists_text_of_load`).  The variable is refused if it is blank, but the check of a
layout looks at the names of its files only.  So a blank directory is one that a
document named and no variable replaced (`isBlank_workingDir_iff`), and such a
document is accepted (`blank_directory_is_accepted`).
-/

namespace RunExchange

set_option autoImplicit false

/-- Whether a path is a text of white space. -/
def Path.isBlank (path : Path) : Bool :=
  (Text.ofUtf8? path).any Text.isBlank

@[simp] theorem Path.isBlank_utf8 (text : String) :
    isBlank (Text.utf8 text) = Text.isBlank text := by
  rw [isBlank, Text.ofUtf8?_utf8]
  rfl

namespace Settings

section Directory

variable {environment : Environment} {stem : String} {tree : FileTree} {path : Option Path}
  {settings : Settings}

/-- The working directory is that of the variable, which is not blank, or that of the
document. -/
theorem workingDir_of_load (loaded : load tree environment stem path = .ok settings) :
    ∃ document, StartsFrom tree path document ∧
      ((∃ text, override? environment stem "WORKING_DIR" = some text ∧
          Text.isBlank text = false ∧ settings.layout.workingDir = text) ∨
        override? environment stem "WORKING_DIR" = none ∧
          settings.layout.workingDir = document.layout.workingDir) := by
  obtain ⟨document, starts, completed⟩ := (load_eq_ok_iff environment stem).1 loaded
  obtain ⟨harmless, overridden, -⟩ := overriddenBy_of_complete environment stem completed
  have chosen := overridden.workingDir
  refine ⟨document, starts, ?_⟩
  cases set : override? environment stem "WORKING_DIR" with
  | none => exact .inr ⟨rfl, by rw [chosen, set, Option.map_none, Option.getD_none]⟩
  | some text =>
      have filled : Text.isBlank text = false := by
        rw [← Bool.not_eq_true]
        exact fun blank => harmless _ (.workingDir set blank)
      exact .inl ⟨text, rfl, filled, by rw [chosen, set, Option.map_some, Option.getD_some]⟩

/-- A document names its working directory by a text. -/
theorem exists_text_of_startsFrom {document : Settings} (starts : StartsFrom tree path document) :
    ∃ text, document.layout.workingDir = Text.utf8 text := by
  cases starts with
  | standard => exact ⟨".", rfl⟩
  | file read parsed =>
      obtain ⟨node, -, done⟩ := Option.bind_eq_some_iff.1 parsed
      cases node with
      | none =>
          cases done
          exact ⟨".", rfl⟩
      | some node =>
          obtain ⟨chosen, unchosen⟩ := given_workingDir node done
          by_cases named : ∃ text, Named node "files" "working_dir" text
          · obtain ⟨text, isNamed⟩ := named
            exact ⟨text, chosen _ ⟨text, isNamed, rfl⟩⟩
          · refine ⟨".", unchosen ?_⟩
            rintro dir ⟨text, isNamed, -⟩
            exact named ⟨text, isNamed⟩

/-- The working directory of a configuration that was loaded is a text. -/
theorem exists_text_of_load (loaded : load tree environment stem path = .ok settings) :
    ∃ text, settings.layout.workingDir = Text.utf8 text := by
  obtain ⟨document, starts, ⟨text, -, -, same⟩ | ⟨-, same⟩⟩ := workingDir_of_load loaded
  · exact ⟨text, same⟩
  · rw [same]
    exact exists_text_of_startsFrom starts

/-- **A blank directory is one that a document named and no variable replaced.** -/
theorem isBlank_workingDir_iff (loaded : load tree environment stem path = .ok settings) :
    Path.isBlank settings.layout.workingDir = true ↔
      override? environment stem "WORKING_DIR" = none ∧
        ∃ file text document, path = some file ∧ tree.readText file = .ok text ∧
          ofText? text = some document ∧ Path.isBlank document.layout.workingDir = true := by
  obtain ⟨document, starts, ⟨word, set, filled, same⟩ | ⟨unset, same⟩⟩ := workingDir_of_load loaded
  · simp [same, filled, set]
  · rw [same]
    constructor
    · intro blank
      refine ⟨unset, ?_⟩
      cases starts with
      | standard => exact absurd blank (by decide)
      | file read parsed => exact ⟨_, _, _, rfl, read, parsed, blank⟩
    · rintro ⟨-, file, text, other, rfl, read, parsed, blank⟩
      rwa [starts.eq (.file read parsed)]

end Directory

/-- A tree with a configuration file that names a blank directory. -/
def blankDirectory : FileTree :=
  .ofList ["w"] [("blank.yaml", .file "files:\n  working_dir: ' '\n".toUTF8)]

theorem load_blankDirectory :
    load blankDirectory [] defaultStem (some (Text.utf8 "blank.yaml")) =
      .ok { standard with layout := .inDir " " } := by
  decide +kernel

theorem blank_directory_is_named :
    ∃ settings, load blankDirectory [] defaultStem (some (Text.utf8 "blank.yaml")) = .ok settings ∧
      override? [] defaultStem "WORKING_DIR" = none ∧
        ∃ file text document, some (Text.utf8 "blank.yaml") = some file ∧
          blankDirectory.readText file = .ok text ∧ ofText? text = some document ∧
          Path.isBlank document.layout.workingDir = true :=
  ⟨_, load_blankDirectory, (isBlank_workingDir_iff load_blankDirectory).1 (by decide)⟩

/-- Not every configuration that is loaded has a directory that is not blank. -/
theorem blank_directory_is_accepted :
    ¬ ∀ (tree : FileTree) (environment : Environment) (stem : String) (path : Option Path)
      (settings : Settings), load tree environment stem path = .ok settings →
        Path.isBlank settings.layout.workingDir = false := by
  intro filled
  have here := filled _ _ _ _ _ load_blankDirectory
  revert here
  decide

-- A variable replaces the directory that the file names.
example : load blankDirectory [("CHANNEL_EXCHANGE_WORKING_DIR", "srv".toUTF8)] defaultStem
    (some (Text.utf8 "blank.yaml")) = .ok { standard with layout := .inDir "srv" } := by
  decide +kernel

end Settings

end RunExchange
