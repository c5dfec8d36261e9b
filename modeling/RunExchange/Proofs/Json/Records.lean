import Mathlib.Tactic
import RunExchange.Proofs.Json.Accepting
/-!
# Proofs.Json.Records -- records that are written as objects

A record is read from an object with members in any order.  The members that are
fields of the record are read and kept; each may come once.  Every other member is
skipped, whatever its value, and may be repeated.  So what a reader of a record finds
is a matter of the known members alone (`readFrom_record_iff`), as long as every name
can be read (`readFrom_unreadable`).
-/

namespace RunExchange.Json

set_option autoImplicit false

/-- An object with these members. -/
def Tree.ofMembers (members : List (String × Tree)) : Tree :=
  .object (members.map fun member => (some member.1, member.2))

/-- The members that are fields. -/
def knownMembers (fields : List (String × Shape)) (members : List (String × Tree)) :
    List (String × Tree) :=
  members.filter fun member => (Entries.find? member.1 fields).isSome

/-- No field is repeated. -/
def GivenOnce (fields : List (String × Shape)) (members : List (String × Tree)) : Prop :=
  (Entries.keys (knownMembers fields members)).Nodup

/-- The values of the fields among the members of an object inside `height - 1`
containers. -/
def knownValues? (limit height : Nat) (fields : List (String × Shape)) :
    List (String × Tree) → Option (List (String × Json))
  | [] => some []
  | (name, tree) :: members =>
      match Entries.find? name fields with
      | none => knownValues? limit height fields members
      | some shape =>
          (tree.read? limit height shape).bind fun value =>
            (knownValues? limit height fields members).map ((name, value) :: ·)

/-- A record with these fields, as far as it was read. -/
def Container.Records (complete : Bool) (fields : List (String × Shape))
    (container : Container) : Prop :=
  ∃ found, container = .record complete fields found

theorem Container.stays_records (complete : Bool) (fields : List (String × Shape)) :
    Container.Stays (Container.Records complete fields) where
  curly := by rintro _ ⟨found, rfl⟩; rfl
  add := by
    rintro _ key value ⟨found, rfl⟩
    exact ⟨_, rfl⟩

/-- How a member of a record is read: nothing is kept of one that is no field. -/
def readField (limit height : Nat) (shape : Shape) (tree : Tree) : Option Json :=
  if shape.isSkipped then some tree.husk else tree.read? limit height shape

/-- Everything in the fields is kept, and none of them is a record. -/
def PlainFields (fields : List (String × Shape)) : Prop :=
  ∀ field ∈ fields, field.2.Plain

section Records

variable {limit : Nat} {around : List Frame} {complete : Bool} {fields : List (String × Shape)}

theorem PlainFields.plain (plain : PlainFields fields) {name : String} {shape : Shape}
    (known : Entries.find? name fields = some shape) : shape.Plain :=
  plain (name, shape) (Entries.mem_of_find? known)

theorem due?_record (found : List (String × Json)) (name : String) :
    (Container.record complete fields found).due? (some name) =
      match Entries.find? name fields with
      | none => some (.skipped, ⟨.record complete fields found, name⟩)
      | some shape =>
          if (Entries.find? name found).isSome then none
          else some (shape, ⟨.record complete fields found, name⟩) := by
  simp only [Container.due?, Container.isSkipped, Bool.false_eq_true, if_false, Option.bind_some,
    Container.member]
  cases Entries.find? name fields with
  | none => rfl
  | some shape =>
      simp only
      split <;> rfl

theorem readsMember_record (plain : PlainFields fields) (room : around.length < limit)
    (name : Option String) (tree : Tree) :
    ReadsMember limit around (Container.Records complete fields)
      (readField limit (around.length + 1)) name tree := by
  rintro _ ⟨found, rfl⟩ due awaited
  cases name with
  | none => cases awaited
  | some key =>
      rw [due?_record] at awaited
      split at awaited
      · cases awaited
        exact leads_skipped tree (⟨.record complete fields found, key⟩ :: around)
      · next shape known =>
          split at awaited
          · cases awaited
          · cases awaited
            have kept : readField limit (around.length + 1) shape tree =
                tree.read? limit (around.length + 1) shape :=
              if_neg (by simp [(plain.plain known).kept])
            rw [kept]
            exact leads_tree tree shape (⟨.record complete fields found, key⟩ :: around)
              (plain.plain known) (by simpa using room)

theorem add_unknown {name : String} (unknown : Entries.find? name fields = none)
    (found : List (String × Json)) (value : Json) :
    (Container.record complete fields found).add name value = .record complete fields found := by
  simp [Container.add, unknown]

theorem add_known {name : String} {shape : Shape}
    (known : Entries.find? name fields = some shape) (found : List (String × Json))
    (value : Json) :
    (Container.record complete fields found).add name value =
      .record complete fields (found ++ [(name, value)]) := by
  simp [Container.add, known]

/-- A second value of a field is refused, so the names would not differ. -/
theorem not_nodup_of_found {name : String} {found : List (String × Json)} {before : Json}
    (earlier : Entries.find? name found = some before) (value : Json)
    (values : List (String × Json)) :
    ¬ (Entries.keys (found ++ (name, value) :: values)).Nodup := by
  intro apart
  have absent := Entries.find?_eq_none_iff.2 (not_mem_keys_of_nodup apart)
  rw [earlier] at absent
  cases absent

theorem nodup_add {name : String} {found : List (String × Json)}
    (distinct : (Entries.keys found).Nodup) (fresh : Entries.find? name found = none)
    (value : Json) : (Entries.keys (found ++ [(name, value)])).Nodup := by
  rw [← Entries.insert_of_not_mem (Entries.find?_eq_none_iff.1 fresh)]
  exact Entries.nodup_keys_insert name value distinct

/-- What a record is after its members: what it held before and the values of the known
members, if no name comes twice. -/
theorem takeMembers?_record (plain : PlainFields fields) {height : Nat}
    (members : List (String × Tree)) {found : List (String × Json)}
    (distinct : (Entries.keys found).Nodup) :
    (Container.record complete fields found).takeMembers? (readField limit height)
        (members.map fun member => (some member.1, member.2)) =
      (knownValues? limit height fields members).bind fun values =>
        if (Entries.keys (found ++ values)).Nodup then
          some (.record complete fields (found ++ values))
        else none := by
  induction members generalizing found with
  | nil => simp [knownValues?, Container.takeMembers?, distinct]
  | cons member members ih =>
      obtain ⟨name, tree⟩ := member
      rw [List.map_cons, takeMembers?_cons, due?_record, knownValues?]
      cases known : Entries.find? name fields with
      | none =>
          simp only [Option.bind_some, readField, Shape.isSkipped, if_true, add_unknown known]
          exact ih distinct
      | some shape =>
          have kept := (plain.plain known).kept
          simp only
          cases earlier : Entries.find? name found with
          | some before =>
              cases tree.read? limit height shape with
              | none => rfl
              | some value =>
                  cases knownValues? limit height fields members with
                  | none => rfl
                  | some values => simp [not_nodup_of_found earlier]
          | none =>
              simp only [Option.isSome_none, Bool.false_eq_true, if_false, Option.bind_some,
                readField, kept, add_known known]
              cases tree.read? limit height shape with
              | none => rfl
              | some value =>
                  simp only [Option.bind_some, ih (nodup_add distinct earlier value),
                    Option.bind_map]
                  simp

/-- The value of a record in an object with these members: the known members have
values and different names, and the record may end. -/
def recordValue? (limit height : Nat) (complete : Bool) (fields : List (String × Shape))
    (members : List (String × Tree)) : Option Json :=
  (knownValues? limit height fields members).bind fun values =>
    if (Entries.keys values).Nodup then (Container.record complete fields values).close.toOption
    else none

theorem recordValue?_eq_some_iff {height : Nat} {members : List (String × Tree)}
    {record : Json} :
    recordValue? limit height complete fields members = some record ↔
      ∃ found, knownValues? limit height fields members = some found ∧
        (Entries.keys found).Nodup ∧
          (Container.record complete fields found).close = .ok record := by
  have ends (found : List (String × Json)) :
      (Container.record complete fields found).close.toOption = some record ↔
        (Container.record complete fields found).close = .ok record := by
    cases (Container.record complete fields found).close <;> simp [Except.toOption]
  simp only [recordValue?, Option.bind_eq_some_iff, Option.ite_none_right_eq_some, ends]

/-- A reader of a record goes from member to member, whatever they are. -/
theorem leads_recordMembers (complete : Bool) (plain : PlainFields fields)
    (room : around.length < limit) (members : List (Option String × Tree)) :
    Leads limit (.valueDue (.record complete fields) around) (Tree.object members).tokens
      (((Container.record complete fields []).takeMembers?
        (readField limit (around.length + 1)) members).bind (ended? · around)) := by
  have opened : State.next limit (.valueDue (.record complete fields) around) (.opener .curly) =
      .ok (.opened (.record complete fields []) around) := by
    simp [State.next, State.read, Shape.opens, room]
  have reads : ∀ member ∈ members, ReadsMember limit around (Container.Records complete fields)
      (readField limit (around.length + 1)) member.1 member.2 :=
    fun member _ => readsMember_record plain room member.1 member.2
  exact .step opened (leads_members (Container.stays_records complete fields) reads ⟨[], rfl⟩)

/-- **A reader of a record follows the known members.** -/
theorem leads_record (plain : PlainFields fields) (room : around.length < limit)
    (members : List (String × Tree)) :
    Leads limit (.valueDue (.record complete fields) around) (Tree.ofMembers members).tokens
      ((recordValue? limit (around.length + 1) complete fields members).map
        (State.after · around)) := by
  have distinct : (Entries.keys ([] : List (String × Json))).Nodup := List.nodup_nil
  have same : (recordValue? limit (around.length + 1) complete fields members).map
        (State.after · around) =
      ((knownValues? limit (around.length + 1) fields members).bind fun values =>
        if (Entries.keys ([] ++ values)).Nodup then
          some (.record complete fields ([] ++ values))
        else none).bind (ended? · around) := by
    rw [recordValue?]
    cases knownValues? limit (around.length + 1) fields members with
    | none => rfl
    | some values =>
        simp only [Option.bind_some, List.nil_append]
        split <;> rfl
  rw [same, ← takeMembers?_record plain members distinct]
  exact leads_recordMembers complete plain room _

/-- The name of every member is looked at, so one that cannot be read ends the reading
even where the value would be skipped. -/
theorem takeMembers?_unreadable {read : Shape → Tree → Option Json}
    {members : List (Option String × Tree)} (unreadable : none ∈ members.map (·.1))
    {container : Container} (isRecord : container.Records complete fields) :
    container.takeMembers? read members = none := by
  induction members generalizing container with
  | nil => cases unreadable
  | cons member members ih =>
      obtain ⟨name, tree⟩ := member
      rw [takeMembers?_cons]
      cases name with
      | none =>
          obtain ⟨found, rfl⟩ := isRecord
          rfl
      | some key =>
          have later : none ∈ members.map (·.1) := by simpa using unreadable
          refine Option.bind_eq_none_iff.2 fun due awaited => ?_
          refine Option.bind_eq_none_iff.2 fun value _ => ih later ?_
          rw [container_due awaited]
          exact (Container.stays_records complete fields).add container due.2.key value isRecord

/-- **An object with a name that cannot be read is no record.** -/
theorem readFrom_unreadable (plain : PlainFields fields) (room : 0 < limit)
    {members : List (Option String × Tree)} (unreadable : none ∈ members.map (·.1))
    {rest : List Token} {value : Json} :
    (Shape.record complete fields).readFrom limit ((Tree.object members).tokens ++ rest) ≠
      .ok (value, rest) := by
  have leads : Leads limit (.valueDue (.record complete fields) []) _ _ :=
    leads_recordMembers complete plain room members
  rw [takeMembers?_unreadable unreadable ⟨[], rfl⟩] at leads
  have stops : Leads limit (.valueDue (.record complete fields) []) (Tree.object members).tokens
      (Option.map (State.after · []) none) := leads
  intro read
  cases stops.readFrom_iff.1 read

/-- **What a reader of a record finds is a matter of the known members.** -/
theorem readFrom_record_iff (plain : PlainFields fields) (room : 0 < limit)
    {members : List (String × Tree)} {rest : List Token} {value : Json} :
    (Shape.record complete fields).readFrom limit ((Tree.ofMembers members).tokens ++ rest) =
        .ok (value, rest) ↔
      recordValue? limit 1 complete fields members = some value :=
  (leads_record plain room members).readFrom_iff

end Records

/-! ## Looking up fields -/

/-- The known members nest so little that the reader of the record accepts them. -/
def Shallow (limit height : Nat) (fields : List (String × Shape))
    (members : List (String × Tree)) : Prop :=
  ∀ member ∈ knownMembers fields members, height + member.2.depth ≤ limit

/-- The first member of each field has a value of the shape of the field. -/
def WellTyped (fields : List (String × Shape)) (members : List (String × Tree)) : Prop :=
  ∀ name shape tree, Entries.find? name fields = some shape →
    Entries.find? name members = some tree → ∃ value, tree.value? shape = some value

section Fields

variable {limit height : Nat} {fields : List (String × Shape)} {members : List (String × Tree)}
  {name : String} {shape : Shape}

theorem find?_knownMembers (known : Entries.find? name fields = some shape) :
    Entries.find? name (knownMembers fields members) = Entries.find? name members := by
  induction members with
  | nil => rfl
  | cons member members ih =>
      obtain ⟨key, tree⟩ := member
      rw [knownMembers, List.filter_cons, ← knownMembers]
      by_cases same : key = name
      · subst same
        simp [known, Entries.find?]
      · split
        · rw [Entries.find?, if_neg same, ih, Entries.find?, if_neg same]
        · rw [ih, Entries.find?, if_neg same]

theorem knownMembers_cons (tree : Tree) :
    knownMembers fields ((name, tree) :: members) =
      match Entries.find? name fields with
      | none => knownMembers fields members
      | some _ => (name, tree) :: knownMembers fields members := by
  rw [knownMembers, List.filter_cons, ← knownMembers]
  cases Entries.find? name fields <;> rfl

/-- The known members have values if each of them has one. -/
theorem exists_knownValues_iff :
    (∃ found, knownValues? limit height fields members = some found) ↔
      ∀ member ∈ knownMembers fields members, ∀ shape,
        Entries.find? member.1 fields = some shape →
          ∃ value, member.2.read? limit height shape = some value := by
  induction members with
  | nil => simp [knownValues?, knownMembers]
  | cons member members ih =>
      obtain ⟨name, tree⟩ := member
      rw [knownValues?, knownMembers_cons]
      cases known : Entries.find? name fields with
      | none => exact ih
      | some shape =>
          simp only [List.forall_mem_cons, ← ih, known, Option.some.injEq, forall_eq']
          cases tree.read? limit height shape with
          | none => simp
          | some value =>
              cases knownValues? limit height fields members with
              | none => simp
              | some found => simp

section Found

variable {found : List (String × Json)}
  (values : knownValues? limit height fields members = some found)
include values

theorem keys_knownValues : Entries.keys found = Entries.keys (knownMembers fields members) := by
  induction members generalizing found with
  | nil =>
      cases values
      rfl
  | cons member members ih =>
      obtain ⟨name, tree⟩ := member
      rw [knownValues?] at values
      rw [knownMembers_cons]
      split at values
      · exact ih values
      · obtain ⟨value, -, rest⟩ := Option.bind_eq_some_iff.1 values
        obtain ⟨later, found, rfl⟩ := Option.map_eq_some_iff.1 rest
        rw [Entries.keys_cons, Entries.keys_cons, ih found]

/-- A field has the value of its first member. -/
theorem find?_knownValues (known : Entries.find? name fields = some shape) :
    Entries.find? name found = (Entries.find? name members).bind (Tree.read? limit height shape) ∧
      ∀ tree, Entries.find? name members = some tree →
        ∃ value, tree.read? limit height shape = some value := by
  induction members generalizing found with
  | nil =>
      cases values
      exact ⟨rfl, nofun⟩
  | cons member members ih =>
      obtain ⟨key, tree⟩ := member
      rw [knownValues?] at values
      rw [Entries.find?]
      by_cases same : key = name
      · subst same
        rw [known] at values
        obtain ⟨value, read, rest⟩ := Option.bind_eq_some_iff.1 values
        obtain ⟨later, -, rfl⟩ := Option.map_eq_some_iff.1 rest
        rw [if_pos rfl, Entries.find?, if_pos rfl, Option.bind_some, read]
        exact ⟨rfl, fun other here => ⟨value, Option.some.inj here ▸ read⟩⟩
      · rw [if_neg same]
        split at values
        · exact ih values
        · obtain ⟨value, -, rest⟩ := Option.bind_eq_some_iff.1 values
          obtain ⟨later, found, rfl⟩ := Option.map_eq_some_iff.1 rest
          rw [Entries.find?, if_neg same]
          exact ih found

end Found

/-- **The known members can be read** if no field is repeated, all of them are shallow
enough and each has a value of its shape. -/
theorem exists_found_iff :
    (∃ found, knownValues? limit height fields members = some found ∧
        (Entries.keys found).Nodup) ↔
      GivenOnce fields members ∧ Shallow limit height fields members ∧
        WellTyped fields members := by
  constructor
  · rintro ⟨found, values, distinct⟩
    have each := exists_knownValues_iff.1 ⟨found, values⟩
    rw [keys_knownValues values] at distinct
    refine ⟨distinct, fun member here => ?_, fun name shape tree known first => ?_⟩
    · obtain ⟨-, isField⟩ := List.mem_filter.1 here
      obtain ⟨shape, known⟩ := Option.isSome_iff_exists.1 isField
      obtain ⟨value, read⟩ := each member here shape known
      exact (Tree.read?_eq_some_iff.1 read).1
    · obtain ⟨value, read⟩ := (find?_knownValues values known).2 tree first
      exact ⟨value, (Tree.read?_eq_some_iff.1 read).2⟩
  · rintro ⟨once, shallow, typed⟩
    have each : ∀ member ∈ knownMembers fields members, ∀ shape,
        Entries.find? member.1 fields = some shape →
          ∃ value, member.2.read? limit height shape = some value := by
      rintro ⟨name, tree⟩ here shape known
      have first : Entries.find? name members = some tree := by
        rw [← find?_knownMembers known]
        exact Entries.find?_of_mem once here
      obtain ⟨value, has⟩ := typed name shape tree known first
      exact ⟨value, Tree.read?_eq_some_iff.2 ⟨shallow _ here, has⟩⟩
    obtain ⟨found, values⟩ := exists_knownValues_iff.2 each
    exact ⟨found, values, by rw [keys_knownValues values]; exact once⟩

/-! ## The end of a record -/

section Ended

variable {complete : Bool} {found : List (String × Json)} {record : Json}

theorem find?_kept (known : name ∈ Entries.keys fields) :
    Entries.find? name (fields.filterMap fun field =>
      (Entries.find? field.1 found).map fun value => (field.1, value)) =
        Entries.find? name found := by
  cases held : Entries.find? name found with
  | none =>
      rw [Entries.find?_eq_none_iff]
      intro here
      obtain ⟨entry, there, rfl⟩ := List.mem_map.1 here
      obtain ⟨field, -, kept⟩ := List.mem_filterMap.1 there
      obtain ⟨value, present, rfl⟩ := Option.map_eq_some_iff.1 kept
      rw [held] at present
      cases present
  | some value =>
      induction fields with
      | nil => cases known
      | cons field fields ih =>
          rw [List.filterMap_cons]
          by_cases same : field.1 = name
          · simp [same, held, Entries.find?]
          · have later : name ∈ Entries.keys fields :=
              (List.mem_cons.1 known).resolve_left (Ne.symm same)
            cases Entries.find? field.1 found with
            | none => exact ih later
            | some other =>
                rw [Option.map_some, Entries.find?, if_neg same]
                exact ih later

/-- A field of a record that ended is what was found for it. -/
theorem member?_of_close (closed : (Container.record complete fields found).close = .ok record)
    (known : Entries.find? name fields = some shape) :
    record.member? name = Entries.find? name found := by
  rw [Container.close] at closed
  split at closed
  · cases closed
  · cases closed
    exact find?_kept (List.mem_map_of_mem (Entries.mem_of_find? known))

/-- A field of a record that ended is the value of the first member of its name. -/
theorem member?_of_members (values : knownValues? limit height fields members = some found)
    (closed : (Container.record complete fields found).close = .ok record)
    (known : Entries.find? name fields = some shape) :
    record.member? name = (Entries.find? name members).bind (Tree.value? shape) ∧
      ∀ tree, Entries.find? name members = some tree →
        ∃ value, tree.value? shape = some value := by
  obtain ⟨here, read⟩ := find?_knownValues values known
  rw [member?_of_close closed known, here]
  cases first : Entries.find? name members with
  | none => exact ⟨rfl, nofun⟩
  | some tree =>
      obtain ⟨value, has⟩ := read tree first
      have value := (Tree.read?_eq_some_iff.1 has).2
      rw [Option.bind_some, Option.bind_some, has, value]
      exact ⟨rfl, fun other same => ⟨_, Option.some.inj same ▸ value⟩⟩

/-- A record may end if it need not be complete or if every field was found. -/
theorem exists_close_iff :
    (∃ record, (Container.record complete fields found).close = .ok record) ↔
      (complete = true → ∀ field ∈ fields, ∃ value, Entries.find? field.1 found = some value) := by
  rw [Container.close]
  split
  · next missing =>
      rw [Bool.and_eq_true, List.any_eq_true] at missing
      obtain ⟨isComplete, field, here, absent⟩ := missing
      refine iff_of_false nofun fun all => ?_
      obtain ⟨value, present⟩ := all isComplete field here
      rw [present] at absent
      cases absent
  · next whole =>
      refine iff_of_true ⟨_, rfl⟩ fun isComplete field here => ?_
      rw [isComplete, Bool.true_and, List.any_eq_true] at whole
      cases present : Entries.find? field.1 found with
      | none => exact absurd ⟨field, here, by rw [present]; rfl⟩ whole
      | some value => exact ⟨value, rfl⟩

end Ended

end Fields

end RunExchange.Json
