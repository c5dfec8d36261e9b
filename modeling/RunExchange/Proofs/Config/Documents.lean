import Mathlib.Tactic
import RunExchange.Proofs.Config.Members
import RunExchange.Proofs.Config.Precedence
/-!
# Proofs.Config.Documents -- which documents are read

A configuration document is partial when each of its two sections comes once at most
and is a mapping, the fields of a section come once at most, file names are scalars
and the other two fields are the words for a severity and for a format (`IsPartial`).
Anything else may stand under other keys.  Such a document is read
(`exists_of_isPartial`).

A section or a field that is repeated, or a file name that is no scalar, makes a
document unreadable, whatever the rest of it is like (`IsRefused.ofNode?_eq`).
-/

namespace RunExchange

set_option autoImplicit false

open Yaml (Node)

theorem Resource.ofName?_eq_some_iff {text : String} {resource : Resource} :
    ofName? text = some resource ↔ text = resource.name := by
  constructor
  · intro found
    have same := List.find?_some found
    exact (beq_iff_eq.1 same).symm
  · rintro rfl
    exact ofName?_name resource

namespace Settings

/-! ## What a document names -/

def sectionNames : List String := ["files", "logging"]

def fileFields : List String := "working_dir" :: Resource.all.map Resource.name

def loggingFields : List String := ["level", "format"]

/-- The fields of a section. -/
def fieldsOf (name : String) : List String :=
  if name = "files" then fileFields else if name = "logging" then loggingFields else []

/-- The document has a section of this name with these members. -/
def HasSection (document : Node) (name : String) (members : List (Node × Node)) : Prop :=
  ∃ sections, members? document document = some sections ∧
    ∃ part ∈ sections, text? document part.1 = some name ∧
      members? document part.2 = some members

/-- The value stands under the name of a field in a section. -/
def Under (document : Node) (name field : String) (value : Node) : Prop :=
  ∃ members, HasSection document name members ∧
    ∃ member ∈ members, text? document member.1 = some field ∧ member.2 = value

/-! ## Documents that are read and documents that are not -/

/-- The node is, or stands for, a scalar. -/
def IsText (document value : Node) : Prop :=
  ∃ properties text plain, document.follow value = some (.scalar properties text plain)

/-- The node is, or stands for, a scalar with this text and without a tag that names
something else. -/
def Spells (document value : Node) (text : String) : Prop :=
  ∃ properties plain, document.follow value = some (.scalar properties text plain) ∧
    properties.tag.bind Yaml.Tag.name? = none

/-- A word for the severity or the format, under its name. -/
structure IsWord (document : Node) (field : String) (value : Node) : Prop where
  level : field = "level" → ∃ severity : Severity, Spells document value severity.name
  format : field = "format" → ∃ format : LogFormat, Spells document value format.name

/-- A mapping, or nothing, of which some fields are known. -/
def IsSection (document : Node) (known : List String) (legal : String → Node → Prop)
    (part : Node) : Prop :=
  ∃ members, members? document part = some members ∧ Readable document known legal members

/-- The sections of a document, each of its kind. -/
structure IsPart (document : Node) (name : String) (part : Node) : Prop where
  files : name = "files" → IsSection document fileFields (fun _ => IsText document) part
  logging : name = "logging" → IsSection document loggingFields (IsWord document) part

/-- A document that names some sections and in them some fields, each once at most, with
legal values, and any other keys with any values. -/
def IsPartial (document : Node) : Prop := IsSection document sectionNames (IsPart document) document

/-- A document with a section or a field that is repeated, or with a collection in place
of a file name. -/
inductive IsRefused (document : Node) : Prop
  | repeatedSection {sections : List (Node × Node)} {name : String}
      (lists : members? document document = some sections) (known : name ∈ sectionNames)
      (again : 2 ≤ (keys document sections).count name)
  | repeatedField {members : List (Node × Node)} {name field : String}
      (has : HasSection document name members) (known : field ∈ fieldsOf name)
      (again : 2 ≤ (keys document members).count field)
  | sequence {field : String} {value : Node} {properties : Yaml.Properties} {items : List Node}
      (under : Under document "files" field value) (known : field ∈ fileFields)
      (follows : document.follow value = some (.sequence properties items))
  | mapping {field : String} {value : Node} {properties : Yaml.Properties}
      {members : List (Node × Node)}
      (under : Under document "files" field value) (known : field ∈ fileFields)
      (follows : document.follow value = some (.mapping properties members))

/-! ## Scalars -/

theorem text?_of_scalar {document value : Node} {properties : Yaml.Properties} {text : String}
    {plain : Bool} (follows : document.follow value = some (.scalar properties text plain)) :
    text? document value = some text := by
  rw [text?, follows]
  rfl

theorem isText_iff {document value : Node} :
    IsText document value ↔ (text? document value).isSome := by
  constructor
  · rintro ⟨properties, text, plain, follows⟩
    rw [text?_of_scalar follows]
    rfl
  · intro read
    rw [text?] at read
    cases follows : document.follow value with
    | none => simp [follows] at read
    | some node =>
        cases node with
        | scalar properties text plain => exact ⟨properties, text, plain, follows⟩
        | _ => simp [follows] at read

theorem Spells.text?_eq {document value : Node} {text : String}
    (spelled : Spells document value text) : text? document value = some text := by
  obtain ⟨properties, plain, follows, -⟩ := spelled
  exact text?_of_scalar follows

/-- The text of a scalar whose tag names nothing. -/
def untagged? (document value : Node) : Option String := do
  match ← document.follow value with
  | .scalar properties text _ =>
      if (properties.tag.bind Yaml.Tag.name?).isNone then some text else none
  | _ => none

theorem spells_iff {document value : Node} {text : String} :
    Spells document value text ↔ untagged? document value = some text := by
  rw [untagged?]
  constructor
  · rintro ⟨properties, plain, follows, untagged⟩
    rw [follows]
    exact if_pos (Option.isNone_iff_eq_none.2 untagged)
  · intro read
    obtain ⟨node, follows, read⟩ := Option.bind_eq_some_iff.1 read
    cases node with
    | scalar properties spelled plain =>
        obtain ⟨untagged, same⟩ := Option.ite_none_right_eq_some.1 read
        cases same
        exact ⟨properties, plain, follows, Option.isNone_iff_eq_none.1 untagged⟩
    | _ => cases read

theorem Spells.name?_eq {document value : Node} {text : String}
    (spelled : Spells document value text) : name? document value = some text := by
  obtain ⟨properties, plain, follows, untagged⟩ := spelled
  rw [name?, follows]
  simp [untagged]

/-! ## Deciding -/

instance (document value : Node) : Decidable (IsText document value) :=
  decidable_of_iff _ isText_iff.symm

theorem exists_spells_iff {α : Type} {word : α → String} {ofWord? : String → Option α}
    (reads : ∀ {text value}, ofWord? text = some value ↔ text = word value)
    {document value : Node} :
    (∃ choice, Spells document value (word choice)) ↔
      ((untagged? document value).bind ofWord?).isSome := by
  simp only [spells_iff, Option.isSome_iff_exists, Option.bind_eq_some_iff, reads]
  simp

instance (document value : Node) (field : String) : Decidable (IsWord document field value) :=
  decidable_of_iff
    ((field = "level" → ((untagged? document value).bind Severity.ofName?).isSome) ∧
      (field = "format" → ((untagged? document value).bind LogFormat.ofName?).isSome))
    ⟨fun words => ⟨fun level => (exists_spells_iff Severity.ofName?_eq_some_iff).2 (words.1 level),
      fun format => (exists_spells_iff LogFormat.ofName?_eq_some_iff).2 (words.2 format)⟩,
    fun words => ⟨fun level =>
        (exists_spells_iff Severity.ofName?_eq_some_iff).1 (words.level level),
      fun format => (exists_spells_iff LogFormat.ofName?_eq_some_iff).1 (words.format format)⟩⟩

instance (document : Node) (known : List String) (legal : String → Node → Prop)
    [∀ name value, Decidable (legal name value)] (members : List (Node × Node)) :
    Decidable (Readable document known legal members) :=
  decidable_of_iff
    ((∀ member ∈ members, (text? document member.1).isSome) ∧
      (∀ name ∈ known, (keys document members).count name ≤ 1) ∧
      ∀ member ∈ members, ∀ name ∈ known, text? document member.1 = some name →
        legal name member.2)
    ⟨fun parts => ⟨parts.1, parts.2.1, parts.2.2⟩,
      fun readable => ⟨readable.texts, readable.once, readable.legal⟩⟩

instance (document : Node) (known : List String) (legal : String → Node → Prop)
    [∀ name value, Decidable (legal name value)] (part : Node) :
    Decidable (IsSection document known legal part) :=
  match listed : members? document part with
  | none => .isFalse fun ⟨_, other, _⟩ => nomatch listed.symm.trans other
  | some members =>
      decidable_of_iff (Readable document known legal members)
        ⟨fun readable => ⟨members, listed, readable⟩, fun ⟨_, other, readable⟩ =>
          Option.some.inj (listed.symm.trans other) ▸ readable⟩

instance (document : Node) (name : String) (part : Node) : Decidable (IsPart document name part) :=
  decidable_of_iff
    ((name = "files" → IsSection document fileFields (fun _ => IsText document) part) ∧
      (name = "logging" → IsSection document loggingFields (IsWord document) part))
    ⟨fun parts => ⟨parts.1, parts.2⟩, fun isPart => ⟨isPart.files, isPart.logging⟩⟩

instance (document : Node) : Decidable (IsPartial document) :=
  inferInstanceAs (Decidable (IsSection document sectionNames (IsPart document) document))

/-! ## The readers -/

variable (document : Node)

theorem mem_fileFields_iff {name : String} :
    name ∈ fileFields ↔ name = "working_dir" ∨ ∃ resource : Resource, name = resource.name := by
  rw [fileFields, List.mem_cons, List.mem_map]
  refine or_congr_right ⟨?_, ?_⟩
  · rintro ⟨resource, -, same⟩
    exact ⟨resource, same.symm⟩
  · rintro ⟨resource, same⟩
    exact ⟨resource, resource.mem_all, same.symm⟩

/-- What the reader of a layout does under a name that it knows. -/
theorem layoutField_cases {name : String} {take : Node → Layout → Option Layout}
    (found : layoutField document name = some take) :
    (name = "working_dir" ∧
        Puts take (fun value => (text? document value).map Text.utf8)
          fun layout workingDir => { layout with workingDir }) ∨
      ∃ resource : Resource, name = resource.name ∧
        Puts take (text? document) fun layout text => layout.rename resource text := by
  rw [layoutField] at found
  split at found
  · next same =>
      cases found
      refine .inl ⟨same, fun value layout => ?_⟩
      dsimp only
      cases text? document value <;> rfl
  · obtain ⟨resource, named, rfl⟩ := Option.map_eq_some_iff.1 found
    refine .inr ⟨resource, Resource.ofName?_eq_some_iff.1 named, fun value layout => ?_⟩
    dsimp only
    cases text? document value <;> rfl

theorem isSome_layoutField_iff {name : String} :
    (layoutField document name).isSome ↔ name ∈ fileFields := by
  rw [mem_fileFields_iff, layoutField]
  split
  · next same => simp [same]
  · next other =>
      simp only [other, Option.isSome_map, false_or, Option.isSome_iff_exists,
        Resource.ofName?_eq_some_iff]

theorem layoutField_knows :
    Knows (layoutField document) fileFields fun _ value => (text? document value).isSome where
  names _ := isSome_layoutField_iff document
  takes name take found value layout := by
    rcases layoutField_cases document found with ⟨-, puts⟩ | ⟨resource, -, puts⟩
    · rw [puts.isSome_iff, Option.isSome_map]
    · exact puts.isSome_iff value layout

/-- What the reader of the logging settings does under a name that it knows. -/
theorem loggingField_cases {name : String} {take : Node → LoggingSettings → Option LoggingSettings}
    (found : loggingField document name = some take) :
    (name = "level" ∧ Puts take (fun value => (name? document value).bind Severity.ofName?)
        fun logging level => { logging with level }) ∨
      name = "format" ∧ Puts take (fun value => (name? document value).bind LogFormat.ofName?)
        fun logging format => { logging with format } := by
  rw [loggingField] at found
  split at found
  · next same =>
      cases found
      refine .inl ⟨same, fun value logging => ?_⟩
      dsimp only
      cases name? document value with
      | none => rfl
      | some word => cases severity : Severity.ofName? word <;> simp [severity]
  · split at found
    · next same =>
        cases found
        refine .inr ⟨same, fun value logging => ?_⟩
        dsimp only
        cases name? document value with
        | none => rfl
        | some word => cases format : LogFormat.ofName? word <;> simp [format]
    · cases found

/-- A logging field is read from the name of a severity or from that of a format. -/
def HasWord (field : String) (value : Node) : Prop :=
  if field = "level" then ((name? document value).bind Severity.ofName?).isSome
  else ((name? document value).bind LogFormat.ofName?).isSome

theorem loggingField_knows :
    Knows (loggingField document) loggingFields (HasWord document) where
  names name := isSome_either_iff name _ _ _ _
  takes name take found := by
    rcases loggingField_cases document found with ⟨rfl, puts⟩ | ⟨rfl, puts⟩
    all_goals exact puts.isSome_iff

/-- The file section of a document. -/
def readFiles (part : Node) : Option Layout :=
  (members? document part).bind (readMembers document (layoutField document) [] Layout.standard)

/-- The logging section of a document. -/
def readLogging (part : Node) : Option LoggingSettings :=
  (members? document part).bind (readMembers document (loggingField document) [] {})

/-- What the reader of a configuration does under a name that it knows. -/
theorem section_cases {name : String} {take : Node → Settings → Option Settings}
    (found : section? document name = some take) :
    (name = "files" ∧ Puts take (readFiles document)
        fun settings layout => { settings with layout }) ∨
      name = "logging" ∧ Puts take (readLogging document)
        fun settings logging => { settings with logging } := by
  rw [section?] at found
  split at found
  · next same =>
      cases found
      refine .inl ⟨same, fun part settings => ?_⟩
      rw [readFiles]
      dsimp only
      cases members? document part with
      | none => rfl
      | some members =>
          cases read : readMembers document (layoutField document) [] Layout.standard members <;>
            simp [read]
  · split at found
    · next same =>
        cases found
        refine .inr ⟨same, fun part settings => ?_⟩
        rw [readLogging]
        dsimp only
        cases members? document part with
        | none => rfl
        | some members =>
            cases read : readMembers document (loggingField document) [] {} members <;>
              simp [read]
    · cases found

/-- A section is read by the reader of its name. -/
def HasPart (name : String) (part : Node) : Prop :=
  if name = "files" then (readFiles document part).isSome
  else (readLogging document part).isSome

theorem section_knows : Knows (section? document) sectionNames (HasPart document) where
  names name := isSome_either_iff name _ _ _ _
  takes name take found := by
    rcases section_cases document found with ⟨rfl, puts⟩ | ⟨rfl, puts⟩
    all_goals exact puts.isSome_iff

/-! ## When a document is read -/

/-- A section is read exactly if it is a mapping whose members can be read. -/
theorem isSome_read_iff {α : Type} {update : String → Option (Node → α → Option α)}
    {known : List String} {legal : String → Node → Prop} (knows : Knows update known legal)
    (start : α) (part : Node) :
    ((members? document part).bind (readMembers document update [] start)).isSome ↔
      IsSection document known legal part := by
  rw [IsSection]
  cases members? document part with
  | none => simp
  | some members => simp [readMembers_isSome_iff knows]

theorem isSome_readFiles_iff (part : Node) :
    (readFiles document part).isSome ↔
      IsSection document fileFields (fun _ value => (text? document value).isSome) part :=
  isSome_read_iff document (layoutField_knows document) _ part

theorem isSome_readLogging_iff (part : Node) :
    (readLogging document part).isSome ↔
      IsSection document loggingFields (HasWord document) part :=
  isSome_read_iff document (loggingField_knows document) _ part

/-- **A document is read exactly if it is a mapping of sections that are read.** -/
theorem isSome_ofNode?_iff :
    (ofNode? document).isSome ↔ IsSection document sectionNames (HasPart document) document :=
  isSome_read_iff document (section_knows document) standard document

theorem IsSection.mono {known : List String} {legal more : String → Node → Prop} {part : Node}
    (isSection : IsSection document known legal part)
    (wider : ∀ name ∈ known, ∀ value, legal name value → more name value) :
    IsSection document known more part := by
  obtain ⟨members, lists, readable⟩ := isSection
  exact ⟨members, lists, readable.mono wider⟩

/-- The members of a section can be read. -/
theorem IsSection.readable {known : List String} {legal : String → Node → Prop} {part : Node}
    {members : List (Node × Node)} (isSection : IsSection document known legal part)
    (lists : members? document part = some members) : Readable document known legal members := by
  obtain ⟨found, listed, readable⟩ := isSection
  obtain rfl : members = found := Option.some.inj (lists.symm.trans listed)
  exact readable

theorem IsPart.hasPart {name : String} {part : Node} (isPart : IsPart document name part)
    (known : name ∈ sectionNames) : HasPart document name part := by
  rw [HasPart]
  split
  · next same =>
      rw [isSome_readFiles_iff]
      exact (isPart.files same).mono document fun _ _ value => isText_iff.1
  · next other =>
      have same : name = "logging" := by simpa [sectionNames, other] using known
      rw [isSome_readLogging_iff]
      refine (isPart.logging same).mono document fun field known value isWord => ?_
      rw [HasWord]
      split
      · next level =>
          obtain ⟨severity, spelled⟩ := isWord.level level
          simp [spelled.name?_eq, Severity.ofName?_name]
      · next neither =>
          have level : field = "format" := by simpa [loggingFields, neither] using known
          obtain ⟨format, spelled⟩ := isWord.format level
          simp [spelled.name?_eq, LogFormat.ofName?_name]

/-- A partial document is read. -/
theorem exists_of_isPartial (isPartial : IsPartial document) :
    ∃ settings, ofNode? document = some settings := by
  rw [← Option.isSome_iff_exists, isSome_ofNode?_iff]
  exact isPartial.mono document fun name known part isPart => isPart.hasPart document known

/-! ## When a document is refused -/

/-- The members of a section can be read if the document is read. -/
theorem HasSection.readable {name : String} {members : List (Node × Node)}
    (has : HasSection document name members) (read : (ofNode? document).isSome)
    (known : name ∈ sectionNames) :
    (name = "files" → Readable document fileFields (fun _ value => (text? document value).isSome)
      members) ∧
      (name = "logging" → Readable document loggingFields (HasWord document) members) := by
  obtain ⟨sections, lists, part, here, named, inner⟩ := has
  have readable := ((isSome_ofNode?_iff document).1 read).readable document lists
  have hasPart := readable.legal part here name known named
  rw [HasPart] at hasPart
  constructor
  · rintro rfl
    rw [if_pos rfl, isSome_readFiles_iff] at hasPart
    exact hasPart.readable document inner
  · rintro rfl
    rw [if_neg (by decide), isSome_readLogging_iff] at hasPart
    exact hasPart.readable document inner

/-- A known field stands in a section that is read once at most. -/
theorem HasSection.once {name field : String} {members : List (Node × Node)}
    (has : HasSection document name members) (read : (ofNode? document).isSome)
    (known : field ∈ fieldsOf name) : (keys document members).count field ≤ 1 := by
  rw [fieldsOf] at known
  split at known
  · next same =>
      subst same
      exact ((has.readable document read (by decide)).1 rfl).once field known
  · split at known
    · next same =>
        subst same
        exact ((has.readable document read (by decide)).2 rfl).once field known
    · cases known

/-- Under a file field of a document that is read stands a scalar. -/
theorem Under.isText {field : String} {value : Node} (under : Under document "files" field value)
    (read : (ofNode? document).isSome) (known : field ∈ fileFields) : IsText document value := by
  obtain ⟨members, has, member, here, named, rfl⟩ := under
  have readable := (has.readable document read (by decide)).1 rfl
  exact isText_iff.2 (readable.legal member here field known named)

/-- **A refused document is not read.** -/
theorem IsRefused.ofNode?_eq (isRefused : IsRefused document) : ofNode? document = none := by
  rw [← Option.not_isSome_iff_eq_none]
  intro read
  cases isRefused with
  | repeatedSection lists known again =>
      have readable := ((isSome_ofNode?_iff document).1 read).readable document lists
      have once := readable.once _ known
      omega
  | repeatedField has known again =>
      have once := has.once document read known
      omega
  | sequence under known follows =>
      obtain ⟨properties, text, plain, isScalar⟩ := under.isText document read known
      rw [follows] at isScalar
      cases isScalar
  | mapping under known follows =>
      obtain ⟨properties, text, plain, isScalar⟩ := under.isText document read known
      rw [follows] at isScalar
      cases isScalar

end Settings

end RunExchange
