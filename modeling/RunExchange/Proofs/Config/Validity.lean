import Mathlib.Tactic
import RunExchange.Config.Layout
/-!
# Proofs.Config.Validity -- the check of a layout

The name of a resource is flawed if it is blank, else if it is no component of a
path, else if a resource before has the same name (`Flaw`).  The check of a layout
reports the first resource whose name is flawed, with the words for its flaw
(`validate_cases`), and a layout without flaws is valid, so it passes exactly if it is
valid (`validate_eq_ok_iff`).

The check goes through the resources with the names it has seen.  The induction
speaks of the resources that are left; those before them have no flaw, and their
names are the ones seen.
-/

namespace RunExchange

set_option autoImplicit false

/-! ## The order of the resources -/

/-- One resource is before another in the order of all. -/
def Resource.Before (a b : Resource) : Prop := all.idxOf a < all.idxOf b

instance (a b : Resource) : Decidable (a.Before b) := inferInstanceAs (Decidable (_ < _))

theorem Resource.not_before_self (resource : Resource) : ¬ resource.Before resource :=
  Nat.lt_irrefl _

theorem Resource.before_or_before : ∀ a b : Resource, a ≠ b → a.Before b ∨ b.Before a := by
  decide

/-- The resources before one are those in front of it. -/
theorem Resource.before_iff {earlier later : List Resource} {resource : Resource}
    (split : Resource.all = earlier ++ resource :: later) (other : Resource) :
    other.Before resource ↔ other ∈ earlier := by
  have distinct : Resource.all.Nodup := by decide
  rw [split, List.nodup_append] at distinct
  have apart : resource ∉ earlier := fun here =>
    distinct.2.2 resource here resource List.mem_cons_self rfl
  rw [Before, split, List.idxOf_append_of_notMem apart, List.idxOf_cons_self, Nat.add_zero]
  constructor
  · intro before
    by_contra absent
    rw [List.idxOf_append_of_notMem absent] at before
    omega
  · intro here
    rw [List.idxOf_append_of_mem here]
    exact List.idxOf_lt_length_of_mem here

namespace Layout

/-! ## Flaws -/

/-- A name with a separator of either kind, or one that stands for a directory. -/
def NoComponent (name : String) : Prop :=
  '/' ∈ name.toList ∨ '\\' ∈ name.toList ∨ name = "." ∨ name = ".."

theorem plainName_iff {name : String} :
    PlainName name ↔ Text.isBlank name = false ∧ ¬ NoComponent name := by
  simp only [PlainName, NoComponent, not_or, ne_eq]

/-- The flaw of a resource's name, in the words for it.  What comes first in this list
hides what comes later. -/
inductive Flaw (layout : Layout) (resource : Resource) : String → Prop
  | blank (white : Text.isBlank (layout.fileName resource) = true) :
      Flaw layout resource (resource.name ++ " cannot be empty")
  | notPlain (visible : Text.isBlank (layout.fileName resource) = false)
      (odd : NoComponent (layout.fileName resource)) :
      Flaw layout resource
        (resource.name ++ " must be a plain file name, got '" ++ layout.fileName resource ++ "'")
  | reused (plain : PlainName (layout.fileName resource)) {other : Resource}
      (before : other.Before resource)
      (same : layout.fileName other = layout.fileName resource) :
      Flaw layout resource
        (resource.name ++ " reuses file name '" ++ layout.fileName resource ++ "'")

/-- The resource is the first one whose name is flawed. -/
structure FirstFlaw (layout : Layout) (resource : Resource) (words : String) : Prop where
  flaw : layout.Flaw resource words
  first : ∀ earlier : Resource, earlier.Before resource → ∀ others, ¬ layout.Flaw earlier others

theorem Flaw.exists_before_of_plain {layout : Layout} {resource : Resource} {words : String}
    (flaw : layout.Flaw resource words) (plain : PlainName (layout.fileName resource)) :
    ∃ other : Resource, other.Before resource ∧
      layout.fileName other = layout.fileName resource := by
  obtain ⟨visible, component⟩ := plainName_iff.1 plain
  cases flaw with
  | blank white =>
      rw [visible] at white
      cases white
  | notPlain _ odd => exact absurd odd component
  | reused _ before same => exact ⟨_, before, same⟩

/-- A name has one flaw at most. -/
theorem Flaw.words_eq {layout : Layout} {resource : Resource} {words others : String}
    (flaw : layout.Flaw resource words) (flawAgain : layout.Flaw resource others) :
    words = others := by
  cases flaw with
  | blank white =>
      cases flawAgain with
      | blank => rfl
      | notPlain visible => simp [white] at visible
      | reused plain => simp [white, PlainName] at plain
  | notPlain visible odd =>
      cases flawAgain with
      | blank white => simp [white] at visible
      | notPlain => rfl
      | reused plain => exact absurd odd (plainName_iff.1 plain).2
  | reused plain before same =>
      cases flawAgain with
      | blank white => simp [white, PlainName] at plain
      | notPlain _ odd => exact absurd odd (plainName_iff.1 plain).2
      | reused => rfl

/-- There is one first flaw at most. -/
theorem FirstFlaw.words_eq {layout : Layout} {a b : Resource} {words others : String}
    (here : layout.FirstFlaw a words) (there : layout.FirstFlaw b others) : words = others := by
  by_cases same : a = b
  · subst same
    exact here.flaw.words_eq there.flaw
  · rcases Resource.before_or_before a b same with before | before
    · exact absurd here.flaw (there.first a before words)
    · exact absurd there.flaw (here.first b before others)

/-- A layout is valid exactly if no name is flawed. -/
theorem valid_iff_no_flaw (layout : Layout) :
    layout.Valid ↔ ∀ resource words, ¬ layout.Flaw resource words := by
  constructor
  · rintro ⟨plain, apart⟩ resource words flaw
    obtain ⟨other, before, same⟩ := flaw.exists_before_of_plain (plain resource)
    rw [apart other resource same] at before
    exact resource.not_before_self before
  · intro sound
    have plain (resource : Resource) : PlainName (layout.fileName resource) := by
      rw [plainName_iff]
      cases white : Text.isBlank (layout.fileName resource) with
      | true => exact absurd (.blank white) (sound resource _)
      | false => exact ⟨rfl, fun odd => sound resource _ (.notPlain white odd)⟩
    refine ⟨plain, fun a b same => ?_⟩
    by_contra apart
    rcases Resource.before_or_before a b apart with before | before
    · exact sound b _ (.reused (plain b) before same)
    · exact sound a _ (.reused (plain a) before same.symm)

/-! ## The check -/

theorem checkFileName_cases (domain field value : String) :
    Text.isBlank value = true ∧
        checkFileName domain field value = .error (.invalid domain (.blank field)) ∨
      (Text.isBlank value = false ∧ NoComponent value ∧
        checkFileName domain field value = .error (.invalid domain (.notPlain field value))) ∨
      PlainName value ∧ checkFileName domain field value = .ok () := by
  rw [checkFileName, checkRequired, plainName_iff]
  cases Text.isBlank value with
  | true => exact .inl ⟨rfl, rfl⟩
  | false =>
      simp only [Bool.false_eq_true, if_false, bind, Except.bind, Bool.or_eq_true,
        List.contains_iff_mem, beq_iff_eq, or_assoc]
      split
      · next odd => exact .inr (.inl ⟨trivial, odd, rfl⟩)
      · next component => exact .inr (.inr ⟨⟨trivial, component⟩, rfl⟩)

/-- From some resource on, the check finds no flaw, or it reports the first one. -/
theorem validateFrom_cases (layout : Layout) {earlier later : List Resource}
    (split : Resource.all = earlier ++ later) {seen : List String}
    (taken : ∀ name, name ∈ seen ↔ ∃ other ∈ earlier, layout.fileName other = name)
    (sound : ∀ other ∈ earlier, ∀ words, ¬ layout.Flaw other words) :
    layout.validateFrom seen later = .ok () ∧
        (∀ resource words, ¬ layout.Flaw resource words) ∨
      ∃ resource problem, layout.FirstFlaw resource problem.message ∧
        layout.validateFrom seen later = .error (.invalid domain problem) := by
  induction later generalizing earlier seen with
  | nil =>
      rw [List.append_nil] at split
      exact .inl ⟨rfl, fun resource => sound resource (split ▸ resource.mem_all)⟩
  | cons resource later ih =>
      have before_iff := Resource.before_iff split
      have isFirst {words : String} (flaw : layout.Flaw resource words) :
          layout.FirstFlaw resource words :=
        ⟨flaw, fun other before => sound other ((before_iff other).1 before)⟩
      rw [validateFrom]
      rcases checkFileName_cases domain resource.name (layout.fileName resource) with
        ⟨white, refused⟩ | ⟨visible, odd, refused⟩ | ⟨plain, passed⟩
      · exact .inr ⟨resource, .blank resource.name, isFirst (.blank white), by rw [refused]; rfl⟩
      · exact .inr ⟨resource, .notPlain resource.name _, isFirst (.notPlain visible odd),
          by rw [refused]; rfl⟩
      · simp only [passed, bind, Except.bind]
        split
        · next used =>
            obtain ⟨other, here, same⟩ := (taken _).1 (List.contains_iff_mem.1 used)
            exact .inr ⟨resource, .reused resource _,
              isFirst (.reused plain ((before_iff other).2 here) same), rfl⟩
        · next free =>
            have next : Resource.all = (earlier ++ [resource]) ++ later := by simpa using split
            refine ih next ?_ ?_
            · intro name
              simp [taken, or_comm, eq_comm]
            · intro other here words flaw
              rcases List.mem_append.1 here with there | last
              · exact sound other there words flaw
              · obtain rfl := List.mem_singleton.1 last
                obtain ⟨twin, before, same⟩ := flaw.exists_before_of_plain plain
                refine free (List.contains_iff_mem.2 ((taken _).2 ⟨twin, ?_, same⟩))
                exact (before_iff twin).1 before

/-- **The check reports the first flaw, if there is one.** -/
theorem validate_cases (layout : Layout) :
    layout.validate = .ok () ∧ (∀ resource words, ¬ layout.Flaw resource words) ∨
      ∃ resource problem, layout.FirstFlaw resource problem.message ∧
        layout.validate = .error (.invalid domain problem) :=
  layout.validateFrom_cases (List.nil_append _).symm (by simp) (by simp)

/-- A layout passes its check exactly if it is valid. -/
theorem validate_eq_ok_iff (layout : Layout) : layout.validate = .ok () ↔ layout.Valid := by
  rw [valid_iff_no_flaw]
  rcases layout.validate_cases with ⟨passed, sound⟩ | ⟨resource, problem, first, refused⟩
  · exact iff_of_true passed sound
  · rw [refused]
    exact iff_of_false nofun fun sound => sound resource _ first.flaw

/-- What is wrong with a layout is blamed on the files. -/
theorem exists_problem_of_validate {layout : Layout} {error : ConfigError}
    (refused : layout.validate = .error error) :
    ∃ resource problem, layout.FirstFlaw resource problem.message ∧
      error = .invalid domain problem := by
  rcases layout.validate_cases with ⟨passed, -⟩ | ⟨resource, problem, first, reported⟩
  · rw [passed] at refused
    cases refused
  · rw [reported] at refused
    cases refused
    exact ⟨resource, problem, first, rfl⟩

/-- The working directory plays no part in the check of a layout. -/
theorem validate_of_fileName {a b : Layout} (same : a.fileName = b.fileName) :
    a.validate = b.validate := by
  have each : ∀ (resources : List Resource) (seen : List String),
      a.validateFrom seen resources = b.validateFrom seen resources := by
    intro resources
    induction resources with
    | nil => exact fun _ => rfl
    | cons resource resources ih =>
        intro seen
        rw [validateFrom, validateFrom, same]
        simp only [ih]
  exact each Resource.all []

/-- **The check accepts exactly the safe layouts and blames the first flaw.**  A layout
passes if each name has a visible character and is one component of a path, and no two
are the same.  Any other one is refused with the words for the flaw of the first
resource that has one.  The working directory plays no part. -/
theorem first_flaw_is_blamed (layout : Layout) :
    (layout.validate = .ok () ↔
      (∀ resource,
        (∃ c ∈ (layout.fileName resource).toList, Text.isWhite c = false) ∧
          '/' ∉ (layout.fileName resource).toList ∧ '\\' ∉ (layout.fileName resource).toList ∧
          layout.fileName resource ≠ "." ∧ layout.fileName resource ≠ "..") ∧
        ∀ a b, a ≠ b → layout.fileName a ≠ layout.fileName b) ∧
      (∀ error, layout.validate = .error error →
        ∃ resource problem, layout.FirstFlaw resource problem.message ∧
          error = .invalid "files" problem) ∧
      (∀ resource words, layout.FirstFlaw resource words →
        ∃ problem, problem.message = words ∧
          layout.validate = .error (.invalid "files" problem)) ∧
      ∀ workingDir, { layout with workingDir }.validate = layout.validate := by
  refine ⟨?_, fun error refused => exists_problem_of_validate refused, ?_,
    fun workingDir => validate_of_fileName rfl⟩
  · rw [validate_eq_ok_iff, Valid]
    simp only [PlainName, Text.isBlank_eq_false_iff]
    refine and_congr_right fun _ => forall₂_congr fun a b => ?_
    exact not_imp_not.symm
  · intro resource words blamed
    rcases layout.validate_cases with ⟨-, sound⟩ | ⟨other, problem, first, refused⟩
    · exact absurd blamed.flaw (sound resource words)
    · exact ⟨problem, first.words_eq blamed, refused⟩

end Layout

end RunExchange
