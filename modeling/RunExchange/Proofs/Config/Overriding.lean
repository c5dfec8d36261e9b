import Mathlib
import RunExchange.Proofs.Config.Documents
/-!
# Proofs.Config.Overriding -- a document overrides what it names

The settings of a partial document are the standard ones but for the fields that it
names (`DescribedBy`).  These alone count, so the order in which they stand does not.
Without overrides the configuration of a file is what its document describes, if the
layout is valid (`documents_override_what_they_name`).
-/

namespace RunExchange.Settings

set_option autoImplicit false

open Yaml (Node)

/-! ## What a document describes -/

/-- The fields that stand in the sections of a name, each with the text of its value if
that is a scalar. -/
def entries (document : Node) (name : String) : List (String × Option String) :=
  ((members? document document).getD []).flatMap fun part =>
    if text? document part.1 = some name then
      ((members? document part.2).getD []).filterMap fun member =>
        (text? document member.1).map fun field => (field, text? document member.2)
    else []

/-- A field of a section has a scalar with this text. -/
def Named (document : Node) (name field text : String) : Prop :=
  (field, some text) ∈ entries document name

theorem mem_entries_iff {document : Node} {name field : String} {text : Option String} :
    (field, text) ∈ entries document name ↔
      ∃ value, Under document name field value ∧ text? document value = text := by
  rw [entries, List.mem_flatMap]
  constructor
  · rintro ⟨part, here, there⟩
    split at there
    · next named =>
        obtain ⟨member, inside, kept⟩ := List.mem_filterMap.1 there
        obtain ⟨key, isKey, same⟩ := Option.map_eq_some_iff.1 kept
        cases same
        cases sections : members? document document with
        | none => simp [sections] at here
        | some parts =>
            cases members : members? document part.2 with
            | none => simp [members] at inside
            | some found =>
                rw [sections] at here
                rw [members] at inside
                exact ⟨member.2, ⟨found, ⟨parts, sections, part, here, named, members⟩,
                  member, inside, isKey, rfl⟩, rfl⟩
    · cases there
  · rintro ⟨_, ⟨members, ⟨sections, lists, part, here, named, inner⟩, member, inside, isKey, rfl⟩,
      rfl⟩
    refine ⟨part, by rwa [lists], ?_⟩
    rw [if_pos named, inner]
    exact List.mem_filterMap.2 ⟨member, inside, by rw [isKey]; rfl⟩

/-- A value that was named, or a default if none was. -/
structure Given {β : Type} (named : β → Prop) (default value : β) : Prop where
  chosen : ∀ other, named other → value = other
  unchosen : (∀ other, ¬ named other) → value = default

/-- The settings have what the document names, and the standard for the rest. -/
structure DescribedBy (document : Node) (settings : Settings) : Prop where
  workingDir : Given (fun dir => ∃ text, Named document "files" "working_dir" text ∧
      dir = Text.utf8 text)
    standard.layout.workingDir settings.layout.workingDir
  fileName : ∀ resource : Resource, Given (Named document "files" resource.name)
    (standard.layout.fileName resource) (settings.layout.fileName resource)
  level : Given (fun severity : Severity => Named document "logging" "level" severity.name)
    standard.logging.level settings.logging.level
  format : Given (fun format : LogFormat => Named document "logging" "format" format.name)
    standard.logging.format settings.logging.format

theorem Given.eq {β : Type} {named : β → Prop} {default value other : β}
    (given : Given named default value) (givenAgain : Given named default other) :
    value = other := by
  by_cases any : ∃ choice, named choice
  · obtain ⟨choice, isNamed⟩ := any
    rw [given.chosen choice isNamed, givenAgain.chosen choice isNamed]
  · rw [not_exists] at any
    rw [given.unchosen any, givenAgain.unchosen any]

/-- A document describes one configuration at most. -/
theorem DescribedBy.eq {document : Node} {settings other : Settings}
    (here : DescribedBy document settings) (there : DescribedBy document other) :
    settings = other := by
  obtain ⟨⟨workingDir, fileName⟩, ⟨level, format⟩⟩ := settings
  obtain ⟨⟨otherDir, otherName⟩, ⟨otherLevel, otherFormat⟩⟩ := other
  obtain rfl : workingDir = otherDir := here.workingDir.eq there.workingDir
  obtain rfl : fileName = otherName :=
    funext fun resource => (here.fileName resource).eq (there.fileName resource)
  obtain rfl : level = otherLevel := here.level.eq there.level
  obtain rfl : format = otherFormat := here.format.eq there.format
  rfl

/-- The order in which fields stand does not matter. -/
theorem named_of_perm {document other : Node} {name : String}
    (reordered : (entries other name).Perm (entries document name)) :
    Named other name = Named document name := by
  funext field text
  simp only [Named, reordered.mem_iff]

variable (document : Node)

/-! ## What a document that is read leaves -/

theorem decides_files : Decides (section? document) "files" (readFiles document) layout :=
  .of_either (fun _ _ => section_cases document) rfl (by decide) (fun _ _ => rfl) fun _ _ => rfl

theorem decides_logging : Decides (section? document) "logging" (readLogging document) logging :=
  .of_either (fun _ _ found => (section_cases document found).symm) rfl (by decide)
    (fun _ _ => rfl) fun _ _ => rfl

theorem name_ne_working_dir : ∀ resource : Resource, resource.name ≠ "working_dir" := by
  decide

theorem decides_workingDir :
    Decides (layoutField document) "working_dir"
      (fun value => (text? document value).map Text.utf8) Layout.workingDir where
  known := rfl
  own take found := by
    rcases layoutField_cases document found with ⟨-, puts⟩ | ⟨resource, other, -⟩
    · exact puts.own fun _ _ => rfl
    · exact absurd other.symm (name_ne_working_dir resource)
  other name take apart found := by
    rcases layoutField_cases document found with ⟨same, -⟩ | ⟨resource, -, puts⟩
    · exact absurd same apart
    · exact puts.other fun _ _ => rfl

theorem decides_fileName (resource : Resource) :
    Decides (layoutField document) resource.name (text? document)
      fun layout => layout.fileName resource where
  known := (isSome_layoutField_iff document).2 (mem_fileFields_iff.2 (.inr ⟨resource, rfl⟩))
  own take found := by
    rcases layoutField_cases document found with ⟨other, -⟩ | ⟨named, same, puts⟩
    · exact absurd other (name_ne_working_dir resource)
    · obtain rfl := Resource.name_inj same
      exact puts.own fun _ _ => if_pos rfl
  other name take apart found := by
    rcases layoutField_cases document found with ⟨-, puts⟩ | ⟨named, same, puts⟩
    · exact puts.other fun _ _ => rfl
    · refine puts.other fun _ _ => if_neg ?_
      rintro rfl
      exact apart same

theorem decides_level :
    Decides (loggingField document) "level"
      (fun value => (name? document value).bind Severity.ofName?) LoggingSettings.level :=
  .of_either (fun _ _ => loggingField_cases document) rfl (by decide) (fun _ _ => rfl)
    fun _ _ => rfl

theorem decides_format :
    Decides (loggingField document) "format"
      (fun value => (name? document value).bind LogFormat.ofName?) LoggingSettings.format :=
  .of_either (fun _ _ found => (loggingField_cases document found).symm) rfl (by decide)
    (fun _ _ => rfl) fun _ _ => rfl

/-- What a field of a section decides is what its value makes it, or the standard if it
has none. -/
theorem view_of_ofNode? {α β : Type} {update : String → Option (Node → α → Option α)} {start : α}
    {name field : String} {part : Settings → α} {read : Node → Option β} {view : α → β}
    (outer : Decides (section? document) name
      (fun node => (members? document node).bind (readMembers document update [] start)) part)
    (inner : Decides update field read view) (begins : part standard = start)
    {settings : Settings} (done : ofNode? document = some settings) :
    (∀ value, Under document name field value → read value = some (view (part settings))) ∧
      ((∀ value, ¬ Under document name field value) → view (part settings) = view start) := by
  obtain ⟨sections, lists, done⟩ := Option.bind_eq_some_iff.1 done
  obtain ⟨given, absent⟩ := view_of_readMembers outer done
  constructor
  · rintro _ ⟨members, ⟨again, listsAgain, node, here, named, inside⟩, member, there, key, rfl⟩
    obtain rfl : sections = again := Option.some.inj (lists.symm.trans listsAgain)
    have reads := given node here named
    rw [inside] at reads
    exact (view_of_readMembers inner reads).1 member there key
  · intro none
    -- A section without the field leaves what it started with; without the section the
    -- standard is never touched.
    by_cases sectionThere : name ∈ keys document sections
    · obtain ⟨node, here, named⟩ := mem_keys_iff.1 sectionThere
      obtain ⟨members, inside, reads⟩ := Option.bind_eq_some_iff.1 (given node here named)
      refine (view_of_readMembers inner reads).2 fun fieldThere => ?_
      obtain ⟨member, there, key⟩ := mem_keys_iff.1 fieldThere
      exact none member.2 ⟨members, ⟨sections, lists, node, here, named, inside⟩, member, there,
        key, rfl⟩
    · rw [absent sectionThere, begins]

/-- A field of a layout is made from the text that was named, or is the standard one. -/
theorem view_of_text {β : Type} {field : String} {read : Node → Option β} {view : Layout → β}
    (inner : Decides (layoutField document) field read view) {make : String → β}
    (made : ∀ value, read value = (text? document value).map make)
    (known : field ∈ fileFields) {settings : Settings}
    (done : ofNode? document = some settings) :
    (∀ text, Named document "files" field text → view settings.layout = make text) ∧
      ((∀ text, ¬ Named document "files" field text) →
        view settings.layout = view standard.layout) := by
  obtain ⟨reads, absent⟩ := view_of_ofNode? document (decides_files document) inner rfl done
  constructor
  · intro text named
    obtain ⟨value, under, text?_eq⟩ := mem_entries_iff.1 named
    have read := reads value under
    rw [made, text?_eq] at read
    exact (Option.some.inj read).symm
  · intro unnamed
    refine absent fun value under => ?_
    have isText := under.isText document (by rw [done]; rfl) known
    obtain ⟨text, text?_eq⟩ := Option.isSome_iff_exists.1 (isText_iff.1 isText)
    exact unnamed text (mem_entries_iff.2 ⟨value, under, text?_eq⟩)

theorem given_workingDir {settings : Settings} (done : ofNode? document = some settings) :
    Given (fun dir => ∃ text, Named document "files" "working_dir" text ∧ dir = Text.utf8 text)
      standard.layout.workingDir settings.layout.workingDir := by
  obtain ⟨chosen, unchosen⟩ :=
    view_of_text document (decides_workingDir document) (fun _ => rfl) (by decide) done
  constructor
  case chosen =>
    rintro _ ⟨text, named, rfl⟩
    exact chosen text named
  case unchosen =>
    intro unnamed
    exact unchosen fun text named => unnamed _ ⟨text, named, rfl⟩

theorem given_fileName (resource : Resource) {settings : Settings}
    (done : ofNode? document = some settings) :
    Given (Named document "files" resource.name) (standard.layout.fileName resource)
      (settings.layout.fileName resource) := by
  obtain ⟨chosen, unchosen⟩ :=
    view_of_text document (decides_fileName document resource)
      (fun _ => Option.map_id'.symm) (mem_fileFields_iff.2 (.inr ⟨resource, rfl⟩)) done
  exact ⟨chosen, unchosen⟩

/-- Under a logging field of a partial document stands a word. -/
theorem Under.isWord {field : String} {value : Node}
    (under : Under document "logging" field value) (isPartial : IsPartial document)
    (known : field ∈ loggingFields) : IsWord document field value := by
  obtain ⟨members, ⟨sections, lists, part, here, named, inner⟩, member, inside, isKey, rfl⟩ := under
  have isPart := (isPartial.readable document lists).legal part here "logging" (by decide) named
  have readable := (isPart.logging rfl).readable document inner
  exact readable.legal member inside field known isKey

theorem given_word {β : Type} {word : β → String} {ofWord? : String → Option β}
    (ofWord?_word : ∀ value, ofWord? (word value) = some value) {field : String}
    {view : LoggingSettings → β}
    (inner : Decides (loggingField document) field
      (fun value => (name? document value).bind ofWord?) view)
    (legal : ∀ value, Under document "logging" field value →
      ∃ choice, Spells document value (word choice))
    {settings : Settings} (done : ofNode? document = some settings) :
    Given (fun choice => Named document "logging" field (word choice))
      (view standard.logging) (view settings.logging) := by
  obtain ⟨reads, absent⟩ := view_of_ofNode? document (decides_logging document) inner rfl done
  constructor
  case chosen =>
    intro choice named
    obtain ⟨value, under, text?_eq⟩ := mem_entries_iff.1 named
    obtain ⟨other, spelled⟩ := legal value under
    -- The scalar that was named is the one that is legal, so the two words are one.
    have same : word other = word choice :=
      Option.some.inj (spelled.text?_eq.symm.trans text?_eq)
    have read := reads value under
    rw [spelled.name?_eq, same, Option.bind_some, ofWord?_word] at read
    exact (Option.some.inj read).symm
  case unchosen =>
    intro unnamed
    refine absent fun value under => ?_
    obtain ⟨choice, spelled⟩ := legal value under
    exact unnamed choice (mem_entries_iff.2 ⟨value, under, spelled.text?_eq⟩)

/-- **What is read from a partial document is what the document describes.** -/
theorem describedBy_of_isPartial (isPartial : IsPartial document) {settings : Settings}
    (done : ofNode? document = some settings) : DescribedBy document settings where
  workingDir := given_workingDir document done
  fileName resource := given_fileName document resource done
  level := given_word document Severity.ofName?_name (decides_level document)
    (fun _ under => (under.isWord document isPartial (by decide)).level rfl) done
  format := given_word document LogFormat.ofName?_name (decides_format document)
    (fun _ under => (under.isWord document isPartial (by decide)).format rfl) done

variable {document} in
/-- A partial document has the settings that it describes. -/
theorem ofNode?_eq_some_iff (isPartial : IsPartial document) {settings : Settings} :
    ofNode? document = some settings ↔ DescribedBy document settings := by
  constructor
  · exact describedBy_of_isPartial document isPartial
  · intro described
    obtain ⟨found, done⟩ := exists_of_isPartial document isPartial
    rw [done, (describedBy_of_isPartial document isPartial done).eq described]

variable {document} in
/-- Partial documents that name the same in any order have the same settings. -/
theorem ofNode?_of_perm {other : Node} (isPartial : IsPartial document)
    (otherPartial : IsPartial other)
    (reordered : ∀ name ∈ sectionNames, (entries other name).Perm (entries document name)) :
    ofNode? other = ofNode? document := by
  obtain ⟨settings, done⟩ := exists_of_isPartial document isPartial
  have files := named_of_perm (reordered "files" (by decide))
  have logging := named_of_perm (reordered "logging" (by decide))
  obtain ⟨workingDir, fileName, level, format⟩ := describedBy_of_isPartial document isPartial done
  rw [done, ofNode?_eq_some_iff otherPartial]
  rw [← files] at workingDir
  simp only [← files] at fileName
  simp only [← logging] at level format
  exact ⟨workingDir, fileName, level, format⟩

/-! ## Files -/

theorem ofFile_of_document {tree : FileTree} {environment : Environment} {stem : String}
    {path : Path} {text : String}
    (read : tree.readText path = .ok text) (parsed : Node.ofText? text = some (some document)) :
    ofFile tree environment stem path =
      match ofNode? document with
      | none => .error .unparsable
      | some settings => complete environment stem settings := by
  rw [ofFile_of_text environment stem read, ofText?, parsed]
  rfl

variable {document} in
/-- The configuration of a file with a partial document, when no variable is set. -/
theorem ofFile_eq_ok_iff {tree : FileTree} {environment : Environment} {stem : String} {path : Path}
    {text : String}
    (read : tree.readText path = .ok text) (parsed : Node.ofText? text = some (some document))
    (isPartial : IsPartial document) (unset : NoOverrides environment stem) {settings : Settings} :
    ofFile tree environment stem path = .ok settings ↔
      DescribedBy document settings ∧ settings.layout.validate = .ok () := by
  obtain ⟨found, done⟩ := exists_of_isPartial document isPartial
  have ended : ofFile tree environment stem path = found.layout.validate.map fun _ => found := by
    rw [ofFile_of_document document read parsed, done]
    exact complete_of_noOverrides unset found
  rw [ended, Except.map_eq_ok_iff, ← ofNode?_eq_some_iff isPartial, done, Option.some.injEq]
  constructor
  · rintro ⟨_, valid, rfl⟩
    exact ⟨rfl, valid⟩
  · rintro ⟨rfl, valid⟩
    exact ⟨(), valid, rfl⟩

/-- **A document overrides what it names.**  A partial document is read, its settings are
the standard ones but for what it names, and the order in which it does so does not matter.
A refused one is not read.  A file without overrides has the settings of its document
exactly if their layout is valid. -/
theorem documents_override_what_they_name :
    (∀ document, IsPartial document →
      (∃ settings, ofNode? document = some settings ∧ DescribedBy document settings) ∧
        ∀ other, IsPartial other →
          (∀ name ∈ sectionNames, (entries other name).Perm (entries document name)) →
            ofNode? other = ofNode? document) ∧
      (∀ document, IsRefused document → ofNode? document = none) ∧
      ∀ (tree : FileTree) (environment : Environment) (stem : String) (path : Path)
          (text : String) (document : Node),
        tree.readText path = .ok text → Node.ofText? text = some (some document) →
          (IsPartial document → NoOverrides environment stem → ∀ settings,
            ofFile tree environment stem path = .ok settings ↔
              DescribedBy document settings ∧ settings.layout.validate = .ok ()) ∧
            (IsRefused document → ofFile tree environment stem path = .error .unparsable) := by
  refine ⟨fun document isPartial => ⟨?_, ?_⟩, fun document => IsRefused.ofNode?_eq document, ?_⟩
  · obtain ⟨settings, done⟩ := exists_of_isPartial document isPartial
    exact ⟨settings, done, describedBy_of_isPartial document isPartial done⟩
  · exact fun other otherPartial => ofNode?_of_perm isPartial otherPartial
  · intro tree environment stem path text document read parsed
    constructor
    · exact fun isPartial unset settings => ofFile_eq_ok_iff read parsed isPartial unset
    · intro isRefused
      rw [ofFile_of_document document read parsed, isRefused.ofNode?_eq]

/-! ## An excerpt -/

def word (text : String) : Node := .scalar ⟨none, none⟩ text true

def mapping (members : List (Node × Node)) : Node := .mapping ⟨none, none⟩ members

/-- A document that names the level, the working directory and a file, besides keys that
are unknown. -/
def excerpt : Node :=
  mapping [
    (word "remarks", .sequence ⟨none, none⟩ [word "a", word "b"]),
    (word "logging", mapping [(word "colour", word "red"), (word "level", word "debug")]),
    (word "remarks", word "c"),
    (word "files", mapping [(word "run_number", word "n"), (word "working_dir", word "w")])]

/-- The same sections and fields in another order. -/
def reordered : Node :=
  mapping [
    (word "files", mapping [(word "working_dir", word "w"), (word "run_number", word "n")]),
    (word "logging", mapping [(word "level", word "debug"), (word "colour", word "red")])]

/-- A document that names the level twice. -/
def repeating : Node :=
  mapping [(word "logging", mapping [(word "level", word "debug"), (word "level", word "debug")])]

def excerptText : String :=
  "remarks: [a, b]\nlogging:\n  colour: red\n  level: debug\nremarks: c\n" ++
    "files:\n  run_number: n\n  working_dir: w\n"

def repeatingText : String := "logging:\n  level: debug\n  level: debug\n"

def excerptFiles : FileTree where
  entries := [(["excerpt.yaml"], .file excerptText.toUTF8),
    (["twice.yaml"], .file repeatingText.toUTF8)]
  current := []

theorem isRefused_repeating : IsRefused repeating :=
  .repeatedField ⟨_, rfl, _, List.mem_singleton_self _, rfl, rfl⟩
    (by decide : "level" ∈ fieldsOf "logging") (by decide)

/-- The excerpt overrides what it names, in any order and in a file as well; the document
that repeats a field is refused. -/
theorem excerpt_overrides_what_it_names :
    let settings : Settings := ⟨(Layout.inDir "w").rename .runNumber "n", { level := .debug }⟩
    (ofNode? excerpt = some settings ∧ DescribedBy excerpt settings) ∧
      ofNode? reordered = ofNode? excerpt ∧ ofNode? repeating = none ∧
      ofFile excerptFiles [] defaultStem "excerpt.yaml" = .ok settings ∧
      ofFile excerptFiles [] defaultStem "twice.yaml" = .error .unparsable := by
  intro settings
  have isPartial : IsPartial excerpt := by decide
  obtain ⟨partials, refused, files⟩ := documents_override_what_they_name
  obtain ⟨⟨found, done, described⟩, anyOrder⟩ := partials excerpt isPartial
  have same : ofNode? excerpt = some settings := by decide
  obtain rfl : found = settings := Option.some.inj (done.symm.trans same)
  have inFile := (files excerptFiles [] defaultStem "excerpt.yaml" excerptText excerpt
    (by decide +kernel) (by cbv)).1 isPartial (fun _ _ => rfl) settings
  have inOther := (files excerptFiles [] defaultStem "twice.yaml" repeatingText repeating
    (by decide +kernel) (by cbv)).2 isRefused_repeating
  exact ⟨⟨done, described⟩, anyOrder reordered (by decide) (by decide),
    refused repeating isRefused_repeating, inFile.2 ⟨described, by decide⟩, inOther⟩

end RunExchange.Settings
