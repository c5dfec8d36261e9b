import Mathlib.Tactic
import RunExchange.Config.Settings
/-!
# Proofs.Config.Members -- how the members of a mapping are read

A reader of a mapping knows some names.  It takes over the value of a known name if
the value is legal for it, and passes over every other member (`Knows`).  Reading
succeeds exactly if every key is a text and every known name comes once at most and
with a legal value (`readMembers_isSome_iff`).

Something that only one name has a say in is afterwards what the value of this name
makes it, or as before if the name is not there (`view_of_readMembers`).
-/

namespace RunExchange.Settings

set_option autoImplicit false

open Yaml (Node)

/-- The keys of members, those that are texts. -/
def keys (document : Node) (members : List (Node × Node)) : List String :=
  members.filterMap fun member => text? document member.1

/-- Every key is a text, and a known name comes once at most and with a legal value.
-/
structure Readable (document : Node) (known : List String) (legal : String → Node → Prop)
    (members : List (Node × Node)) : Prop where
  texts : ∀ member ∈ members, (text? document member.1).isSome
  once : ∀ name ∈ known, (keys document members).count name ≤ 1
  legal : ∀ member ∈ members, ∀ name ∈ known, text? document member.1 = some name →
    legal name member.2

theorem Readable.mono {document : Node} {known : List String} {legal more : String → Node → Prop}
    {members : List (Node × Node)} (readable : Readable document known legal members)
    (wider : ∀ name ∈ known, ∀ value, legal name value → more name value) :
    Readable document known more members :=
  ⟨readable.texts, readable.once, fun member here name isKnown named =>
    wider name isKnown _ (readable.legal member here name isKnown named)⟩

section Members

variable {α : Type} {document : Node} {update : String → Option (Node → α → Option α)}

theorem keys_cons_of_text {key value : Node} {name : String}
    (named : text? document key = some name) (members : List (Node × Node)) :
    keys document ((key, value) :: members) = name :: keys document members := by
  rw [keys, List.filterMap_cons, named]
  rfl

theorem mem_keys_iff {members : List (Node × Node)} {name : String} :
    name ∈ keys document members ↔
      ∃ member ∈ members, text? document member.1 = some name :=
  List.mem_filterMap

/-- The names that the reader knows, and the values that it takes for them, whatever
was read before. -/
structure Knows (update : String → Option (Node → α → Option α)) (known : List String)
    (legal : String → Node → Prop) : Prop where
  names : ∀ name, (update name).isSome ↔ name ∈ known
  takes : ∀ name take, update name = some take → ∀ value state,
    (take value state).isSome ↔ legal name value

/-! ## When reading succeeds -/

/-- A known name that was seen may not come again, any other one may come once. -/
def FreshOnce (known seen names : List String) : Prop :=
  ∀ name ∈ known, names.count name ≤ if name ∈ seen then 0 else 1

theorem freshOnce_cons_of_unknown {known seen names : List String} {name : String}
    (unknown : name ∉ known) :
    FreshOnce known seen (name :: names) ↔ FreshOnce known seen names := by
  refine forall₂_congr fun other isKnown => ?_
  have apart : name ≠ other := fun same => unknown (same ▸ isKnown)
  rw [List.count_cons_of_ne apart]

theorem freshOnce_cons_of_known {known seen names : List String} {name : String}
    (isKnown : name ∈ known) :
    FreshOnce known seen (name :: names) ↔
      name ∉ seen ∧ FreshOnce known (name :: seen) names := by
  constructor
  · intro fresh
    have here := fresh name isKnown
    rw [List.count_cons_self] at here
    have unseen : name ∉ seen := by
      intro again
      rw [if_pos again] at here
      omega
    refine ⟨unseen, fun other otherKnown => ?_⟩
    by_cases same : other = name
    · subst same
      simp only [if_neg unseen] at here
      simp only [List.mem_cons_self, if_true]
      omega
    · have there := fresh other otherKnown
      rw [List.count_cons_of_ne (Ne.symm same)] at there
      simpa [same] using there
  · rintro ⟨unseen, fresh⟩ other otherKnown
    have there := fresh other otherKnown
    by_cases same : other = name
    · subst same
      rw [List.count_cons_self, if_neg unseen]
      simp only [List.mem_cons_self, if_true] at there
      omega
    · rw [List.count_cons_of_ne (Ne.symm same)]
      simpa [same] using there

/-- Reading succeeds exactly if every member can be read and no known name comes again. -/
theorem readMembers_isSome_iff_after {known : List String} {legal : String → Node → Prop}
    (knows : Knows update known legal) (members : List (Node × Node)) (seen : List String)
    (start : α) :
    (readMembers document update seen start members).isSome ↔
      (∀ member ∈ members, (text? document member.1).isSome) ∧
        FreshOnce known seen (keys document members) ∧
          ∀ member ∈ members, ∀ name ∈ known, text? document member.1 = some name →
            legal name member.2 := by
  induction members generalizing seen start with
  | nil => simp [readMembers, keys, FreshOnce]
  | cons member members ih =>
      obtain ⟨key, value⟩ := member
      rw [readMembers, List.forall_mem_cons, List.forall_mem_cons]
      cases named : text? document key with
      | none => simp
      | some name =>
          simp only [Option.bind_eq_bind, Option.bind_some, keys_cons_of_text named,
            Option.isSome_some, true_and, Option.some.injEq]
          cases found : update name with
          | none =>
              -- An unknown name may come again and has any value.
              have unknown : name ∉ known := by simp [← knows.names, found]
              have harmless : ∀ other ∈ known, name = other → legal other value :=
                fun other isKnown same => absurd (same ▸ isKnown) unknown
              rw [ih, freshOnce_cons_of_unknown unknown]
              simp only [iff_true_intro harmless, true_and]
          | some take =>
              have isKnown : name ∈ known := by simp [← knows.names, found]
              have head : (∀ other ∈ known, name = other → legal other value) ↔
                  legal name value :=
                ⟨fun all => all name isKnown rfl, fun good other _ same => same ▸ good⟩
              rw [freshOnce_cons_of_known isKnown, head, ← knows.takes name take found value start]
              by_cases again : name ∈ seen
              · simp [again]
              · cases taken : take value start with
                | none => simp [again, taken]
                | some next =>
                    simp only [again, List.contains_iff_mem, if_false, not_false_iff, true_and,
                      Option.bind_some, Option.isSome_some, ih, taken]

/-- **Reading succeeds exactly if the members can be read.** -/
theorem readMembers_isSome_iff {known : List String} {legal : String → Node → Prop}
    (knows : Knows update known legal) (start : α) (members : List (Node × Node)) :
    (readMembers document update [] start members).isSome ↔
      Readable document known legal members := by
  rw [readMembers_isSome_iff_after knows]
  constructor
  · rintro ⟨texts, once, legal⟩
    exact ⟨texts, fun name isKnown => by simpa using once name isKnown, legal⟩
  · rintro ⟨texts, once, legal⟩
    exact ⟨texts, fun name isKnown => by simpa using once name isKnown, legal⟩

/-! ## What reading leaves -/

/-- Taking a value is reading it and putting what was read in its place. -/
def Puts {β : Type} (take : Node → α → Option α) (read : Node → Option β) (put : α → β → α) :
    Prop :=
  ∀ value state, take value state = (read value).map (put state)

/-- One name has a say in what is viewed, and its value decides it. -/
structure Decides {β : Type} (update : String → Option (Node → α → Option α)) (field : String)
    (read : Node → Option β) (view : α → β) : Prop where
  known : (update field).isSome
  own : ∀ take, update field = some take → ∀ value state next, take value state = some next →
    read value = some (view next)
  other : ∀ name take, name ≠ field → update name = some take → ∀ value state next,
    take value state = some next → view next = view state

section Puts

variable {β γ : Type} {take : Node → α → Option α} {read : Node → Option β} {put : α → β → α}

theorem Puts.isSome_iff (puts : Puts take read put) (value : Node) (state : α) :
    (take value state).isSome ↔ (read value).isSome := by
  rw [puts, Option.isSome_map]

/-- What is viewed is what was read, if that was put there. -/
theorem Puts.own (puts : Puts take read put) {view : α → β}
    (sets : ∀ state content, view (put state content) = content) (value : Node)
    (state next : α) (taken : take value state = some next) : read value = some (view next) := by
  rw [puts] at taken
  obtain ⟨content, found, rfl⟩ := Option.map_eq_some_iff.1 taken
  rw [found, sets]

/-- What is viewed stays if something else was put. -/
theorem Puts.other (puts : Puts take read put) {view : α → γ}
    (keeps : ∀ state content, view (put state content) = view state) (value : Node)
    (state next : α) (taken : take value state = some next) : view next = view state := by
  rw [puts] at taken
  obtain ⟨content, -, rfl⟩ := Option.map_eq_some_iff.1 taken
  exact keeps state content

end Puts

/-! ## Readers of two names -/

theorem isSome_either_iff (name one other : String) (first second : α) :
    (if name = one then some first else if name = other then some second else none).isSome ↔
      name ∈ [one, other] := by
  split
  · next same => simp [same]
  · next apart =>
      split
      · next same => simp [same]
      · next neither => simp [apart, neither]

/-- If there are two names and only one of them puts what is viewed, it decides it. -/
theorem Decides.of_either {β γ : Type} {one other : String} {read : Node → Option β}
    {readOther : Node → Option γ} {put : α → β → α} {putOther : α → γ → α} {view : α → β}
    (either : ∀ name take, update name = some take →
      name = one ∧ Puts take read put ∨ name = other ∧ Puts take readOther putOther)
    (known : (update one).isSome) (apart : one ≠ other)
    (sets : ∀ state content, view (put state content) = content)
    (keeps : ∀ state content, view (putOther state content) = view state) :
    Decides update one read view where
  known := known
  own take found := by
    rcases either one take found with ⟨-, puts⟩ | ⟨same, -⟩
    · exact puts.own sets
    · exact absurd same apart
  other name take different found := by
    rcases either name take found with ⟨same, -⟩ | ⟨-, puts⟩
    · exact absurd same different
    · exact puts.other keeps

/-! ## Any number of members -/

theorem view_of_readMembers_after {β : Type} {field : String} {read : Node → Option β}
    {view : α → β} (decides : Decides update field read view) {members : List (Node × Node)}
    {seen : List String} {start final : α}
    (done : readMembers document update seen start members = some final) :
    (field ∈ seen → field ∉ keys document members) ∧
      (∀ member ∈ members, text? document member.1 = some field →
        read member.2 = some (view final)) ∧
      (field ∉ keys document members → view final = view start) := by
  induction members generalizing seen start with
  | nil =>
      cases done
      simp [keys]
  | cons member members ih =>
      obtain ⟨key, value⟩ := member
      rw [readMembers, Option.bind_eq_bind, Option.bind_eq_some_iff] at done
      obtain ⟨name, named, done⟩ := done
      rw [List.forall_mem_cons, keys_cons_of_text named, named, List.mem_cons, not_or,
        Option.some.injEq]
      by_cases same : name = field
      · subst same
        obtain ⟨take, found⟩ := Option.isSome_iff_exists.1 decides.known
        rw [found] at done
        simp only [List.contains_iff_mem, Option.ite_none_left_eq_some, Option.bind_eq_bind,
          Option.bind_eq_some_iff] at done
        obtain ⟨unseen, next, taken, done⟩ := done
        -- The name is seen now, so it does not come again and what it left stays.
        obtain ⟨gone, -, stays⟩ := ih done
        have absent := gone List.mem_cons_self
        refine ⟨fun again => absurd again unseen, ⟨fun _ => ?_, fun member here again => ?_⟩,
          fun other => absurd rfl other.1⟩
        · rw [decides.own take found value start next taken, stays absent]
        · exact absurd (mem_keys_iff.2 ⟨member, here, again⟩) absent
      · have apart : field ≠ name := Ne.symm same
        simp only [same, false_imp_iff, true_and, apart, not_false_iff]
        cases found : update name with
        | none =>
            simp only [found] at done
            exact ih done
        | some take =>
            simp only [found, List.contains_iff_mem, Option.ite_none_left_eq_some,
              Option.bind_eq_bind, Option.bind_eq_some_iff] at done
            obtain ⟨-, next, taken, done⟩ := done
            obtain ⟨gone, given, stays⟩ := ih done
            refine ⟨fun again => gone (List.mem_cons_of_mem _ again), given, fun absent => ?_⟩
            rw [stays absent, decides.other name take same found value start next taken]

/-- **What a name decides is what its value makes it**, or as before without a value.
-/
theorem view_of_readMembers {β : Type} {field : String} {read : Node → Option β} {view : α → β}
    (decides : Decides update field read view) {members : List (Node × Node)} {start final : α}
    (done : readMembers document update [] start members = some final) :
    (∀ member ∈ members, text? document member.1 = some field →
        read member.2 = some (view final)) ∧
      (field ∉ keys document members → view final = view start) :=
  (view_of_readMembers_after decides done).2

end Members

end RunExchange.Settings
