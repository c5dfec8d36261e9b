import Mathlib.Tactic
import RunExchange.Proofs.Json.Reading
/-!
# Proofs.Json.Fitting -- whatever is read is well formed and fits under the limit

A value fits at a height when its containers, with those around it, are at most
as many as the limit, and none of its objects repeats a name.  A reader counts
the containers as it opens them and inserts members by name, so what it returns
fits (`fits_of_readFrom`).

A value that is skipped may nest to any depth, and nothing of it is kept: the
container that it stands in discards it.  So the invariant asks of an open
container that its contents fit, or that what becomes of it will be discarded.
-/

namespace RunExchange.Json

set_option autoImplicit false

/-- A value that may stand inside `height` containers. -/
def Fits (limit height : Nat) (value : Json) : Prop :=
  height + value.depth ≤ limit ∧ value.WellFormed

section Contents

variable {limit height : Nat}

theorem fits_of_depth_le {bound : Nat} {value : Json} (shallow : value.depth ≤ bound)
    (wellFormed : value.WellFormed) (room : height + bound ≤ limit) : Fits limit height value :=
  ⟨by omega, wellFormed⟩

theorem Fits.room {value : Json} (fits : Fits nestingLimit height value) :
    height + value.depth ≤ 127 :=
  fits.1

/-- What fits somewhere fits inside fewer containers. -/
theorem Fits.lower {lower : Nat} {value : Json} (fits : Fits limit height value)
    (below : lower ≤ height) : Fits limit lower value :=
  ⟨by have := fits.1; omega, fits.2⟩

theorem depthItems_le_iff {items : List Json} {bound : Nat} :
    depthItems items ≤ bound ↔ ∀ value ∈ items, value.depth ≤ bound := by
  induction items with
  | nil => simp [depthItems]
  | cons value items ih => simp [depthItems, ih]

theorem depthEntries_le_iff {entries : List (String × Json)} {bound : Nat} :
    depthEntries entries ≤ bound ↔ ∀ entry ∈ entries, entry.2.depth ≤ bound := by
  induction entries with
  | nil => simp [depthEntries]
  | cons entry entries ih => simp [depthEntries, ih]

theorem wellFormedItems_iff {items : List Json} :
    WellFormedItems items ↔ ∀ value ∈ items, value.WellFormed := by
  induction items with
  | nil => simp [WellFormedItems]
  | cons value items ih => simp [WellFormedItems, ih]

theorem wellFormedEntries_iff {entries : List (String × Json)} :
    WellFormedEntries entries ↔ ∀ entry ∈ entries, entry.2.WellFormed := by
  induction entries with
  | nil => simp [WellFormedEntries]
  | cons entry entries ih => simp [WellFormedEntries, ih]

theorem fits_array_iff {items : List Json} :
    Fits limit height (.array items) ↔
      height < limit ∧ ∀ value ∈ items, Fits limit (height + 1) value := by
  have room : height + (1 + depthItems items) ≤ limit ↔
      height < limit ∧ depthItems items ≤ limit - (height + 1) := by omega
  rw [Fits, depth, WellFormed, room, depthItems_le_iff, wellFormedItems_iff]
  constructor
  · rintro ⟨⟨below, shallow⟩, wellFormed⟩
    refine ⟨below, fun value here => ⟨?_, wellFormed value here⟩⟩
    have := shallow value here
    omega
  · rintro ⟨below, each⟩
    refine ⟨⟨below, fun value here => ?_⟩, fun value here => (each value here).2⟩
    have := (each value here).1
    omega

theorem fits_object_iff {entries : List (String × Json)} :
    Fits limit height (.object entries) ↔
      height < limit ∧ (Entries.keys entries).Nodup ∧
        ∀ entry ∈ entries, Fits limit (height + 1) entry.2 := by
  have room : height + (1 + depthEntries entries) ≤ limit ↔
      height < limit ∧ depthEntries entries ≤ limit - (height + 1) := by omega
  rw [Fits, depth, WellFormed, room, depthEntries_le_iff, wellFormedEntries_iff]
  constructor
  · rintro ⟨⟨below, shallow⟩, distinct, wellFormed⟩
    refine ⟨below, distinct, fun entry here => ⟨?_, wellFormed entry here⟩⟩
    have := shallow entry here
    omega
  · rintro ⟨below, distinct, each⟩
    refine ⟨⟨below, fun entry here => ?_⟩, distinct, fun entry here => (each entry here).2⟩
    have := (each entry here).1
    omega

theorem fits_of_scalar {token : Token} {value : Json} (scalar : token.scalar? = some value)
    (within : height ≤ limit) : Fits limit height value := by
  cases token <;> simp only [Token.scalar?, Option.some.injEq, Option.map_eq_some_iff,
    reduceCtorEq] at scalar
  · subst scalar; exact ⟨within, trivial⟩
  · subst scalar; exact ⟨within, trivial⟩
  · obtain ⟨number, -, rfl⟩ := scalar; exact ⟨within, trivial⟩
  · obtain ⟨text, -, rfl⟩ := scalar; exact ⟨within, trivial⟩

end Contents

/-! ## Shapes -/

mutual

/-- The fields of a record have different names, and none of them is skipped. -/
def Shape.Proper : Shape → Prop
  | .list item => item.Proper
  | .table value => value.Proper
  | .record _ fields => (Entries.keys fields).Nodup ∧ ProperFields fields
  | _ => True

def ProperFields : List (String × Shape) → Prop
  | [] => True
  | (_, shape) :: fields => shape.isSkipped = false ∧ shape.Proper ∧ ProperFields fields

end

theorem properFields_iff {fields : List (String × Shape)} :
    ProperFields fields ↔ ∀ field ∈ fields, field.2.isSkipped = false ∧ field.2.Proper := by
  induction fields with
  | nil => simp [ProperFields]
  | cons field fields ih => simp [ProperFields, ih, and_assoc]

/-! ## Containers -/

/-- The shapes that a container reads are proper. -/
def Container.Proper : Container → Prop
  | .list item _ => item.Proper
  | .table shape _ => shape.Proper
  | .record _ fields _ => (Entries.keys fields).Nodup ∧ ProperFields fields
  | .sequence _ due _ => ProperFields due

/-- The contents of a container inside `height` others fit. -/
def Container.Sound (limit height : Nat) : Container → Prop
  | .list _ items => height < limit ∧ ∀ value ∈ items, Fits limit (height + 1) value
  | .table _ entries =>
      height < limit ∧ (Entries.keys entries).Nodup ∧
        ∀ entry ∈ entries, Fits limit (height + 1) entry.2
  | .record _ _ found => height < limit ∧ ∀ entry ∈ found, Fits limit (height + 1) entry.2
  | .sequence _ due found =>
      height < limit ∧ (Entries.keys found ++ Entries.keys due).Nodup ∧
        ∀ entry ∈ found, Fits limit (height + 1) entry.2

/-- Whatever is put into the container under the name is not kept. -/
def Discards (container : Container) (key : String) : Prop :=
  ∀ value, container.add key value = container

/-- The innermost open container discards what is due. -/
def Dropped : List Frame → Prop
  | [] => False
  | frame :: _ => Discards frame.container frame.key

theorem Container.Sound.lt {limit height : Nat} {container : Container}
    (sound : container.Sound limit height) : height < limit := by
  cases container <;> exact sound.1

theorem Container.Proper.add {container : Container} (proper : container.Proper) (key : String)
    (value : Json) : (container.add key value).Proper := by
  unfold Container.add
  split
  · exact proper
  · exact proper
  · exact proper
  · exact proper
  · exact proper
  · exact proper
  · exact proper.2.2

theorem Container.Sound.add {limit height : Nat} {container : Container}
    (sound : container.Sound limit height) (key : String) {value : Json}
    (fits : Fits limit (height + 1) value) : (container.add key value).Sound limit height := by
  have last {found : List (String × Json)} {name : String}
      (each : ∀ entry ∈ found, Fits limit (height + 1) entry.2) :
      ∀ entry ∈ found ++ [(name, value)], Fits limit (height + 1) entry.2 := by
    intro entry here
    rcases List.mem_append.1 here with there | there
    · exact each entry there
    · rw [List.mem_singleton.1 there]; exact fits
  unfold Container.add
  split
  · exact sound
  · refine ⟨sound.1, fun item here => ?_⟩
    rcases List.mem_cons.1 here with rfl | there
    · exact fits
    · exact sound.2 item there
  · exact sound
  · refine ⟨sound.1, Entries.nodup_keys_insert _ _ sound.2.1, fun entry here => ?_⟩
    rcases Entries.mem_insert here with rfl | there
    · exact fits
    · exact sound.2.2 entry there
  · refine ⟨sound.1, ?_⟩
    split
    · exact last sound.2
    · exact sound.2
  · exact sound
  · obtain ⟨below, distinct, each⟩ := sound
    refine ⟨below, ?_, last each⟩
    simpa [Entries.keys] using distinct

/-- The fields that were found stand in the order of all fields. -/
theorem keys_found_sublist (fields : List (String × Shape)) (found : List (String × Json)) :
    (Entries.keys (fields.filterMap fun field =>
      (Entries.find? field.1 found).map fun value => (field.1, value))).Sublist
      (Entries.keys fields) := by
  induction fields with
  | nil => exact List.Sublist.refl _
  | cons field fields ih =>
      rw [Entries.keys_cons, List.filterMap_cons]
      cases Entries.find? field.1 found with
      | none => exact ih.cons field.1
      | some value => exact ih.cons_cons field.1

theorem Container.Sound.close {limit height : Nat} {container : Container} {value : Json}
    (sound : container.Sound limit height) (proper : container.Proper)
    (closed : container.close = .ok value) : Fits limit height value := by
  cases container with
  | list item items =>
      cases closed
      exact fits_array_iff.2 ⟨sound.1, fun value here => sound.2 value (List.mem_reverse.1 here)⟩
  | table shape entries =>
      cases closed
      exact fits_object_iff.2 sound
  | record complete fields found =>
      rw [Container.close] at closed
      split at closed
      · cases closed
      · cases closed
        refine fits_object_iff.2 ⟨sound.1, (keys_found_sublist fields found).nodup proper.1, ?_⟩
        intro entry here
        obtain ⟨field, -, kept⟩ := List.mem_filterMap.1 here
        obtain ⟨value, present, rfl⟩ := Option.map_eq_some_iff.1 kept
        exact sound.2 _ (Entries.mem_of_find? present)
  | sequence complete due found =>
      rw [Container.close] at closed
      split at closed
      · cases closed
      · cases closed
        exact fits_object_iff.2 ⟨sound.1, (List.nodup_append.1 sound.2.1).1, sound.2.2⟩

/-- What a bracket opens is empty, so it is sound wherever it may stand. -/
theorem sound_of_opens {shape : Shape} {bracket : Bracket} {container : Container}
    {limit height : Nat} (proper : shape.Proper) (opens : shape.opens bracket = some container)
    (room : height < limit) : container.Sound limit height := by
  unfold Shape.opens at opens
  split at opens <;> cases opens
  case h_8 =>
    exact ⟨room, proper.1, by simp⟩
  all_goals simp [Container.Sound, room]

theorem proper_of_opens {shape : Shape} {bracket : Bracket} {container : Container}
    (proper : shape.Proper) (opens : shape.opens bracket = some container) :
    container.Proper := by
  unfold Shape.opens at opens
  split at opens <;> cases opens
  case h_7 => exact proper
  case h_8 => exact proper.2
  case h_5 => exact proper
  case h_6 => exact proper
  all_goals exact trivial

/-- What may come next in a list is proper, and discarded if it is skipped. -/
theorem proper_of_item? {container : Container} {shape : Shape} (proper : container.Proper)
    (due : container.item? = some shape) :
    shape.Proper ∧ (shape.isSkipped → Discards container "") := by
  unfold Container.item? at due
  split at due <;> cases due
  · refine ⟨proper, fun skipped value => ?_⟩
    cases shape <;> first | rfl | cases skipped
  · exact ⟨proper.2.1, fun skipped => absurd skipped (by simp [proper.1])⟩

theorem proper_of_member {container : Container} {key : String} {shape : Shape}
    (proper : container.Proper) (member : container.member key = .ok shape) :
    shape.Proper ∧ (shape.isSkipped → Discards container key) := by
  unfold Container.member at member
  split at member
  · cases member
    refine ⟨proper, fun skipped value => ?_⟩
    cases shape <;> first | rfl | cases skipped
  · split at member
    · next absent =>
        cases member
        exact ⟨trivial, fun _ value => by simp [Container.add, absent]⟩
    · next known =>
        split at member
        · cases member
        · cases member
          have field := properFields_iff.1 proper.2 _ (Entries.mem_of_find? known)
          exact ⟨field.2, fun skipped => absurd skipped (by simp [field.1])⟩
  · cases member

/-! ## States -/

/-- The contents of every open container fit, or will be discarded. -/
def Stack (limit : Nat) : List Frame → Prop
  | [] => True
  | frame :: around =>
      (frame.container.Sound limit around.length ∨ Dropped around) ∧
        frame.container.Proper ∧ Stack limit around

/-- A value of the shape may come: what it reads is kept only if it fits. -/
def Due (limit : Nat) (shape : Shape) (around : List Frame) : Prop :=
  Stack limit around ∧ shape.Proper ∧ (shape.isSkipped → Dropped around)

/-- A value that was read fits where it stands, or will be discarded. -/
def Settled (limit : Nat) (value : Json) (around : List Frame) : Prop :=
  (around.length ≤ limit → Fits limit around.length value) ∨ Dropped around

/-- **The invariant of a reader.** -/
def State.Sound (limit : Nat) : State → Prop
  | .valueDue shape around => Due limit shape around
  | .opened container around | .filled container around | .keyDue container around =>
      Stack limit (⟨container, ""⟩ :: around)
  | .colonDue shape frame around => Due limit shape (frame :: around)
  | .done value => Fits limit 0 value

section Steps

variable {limit : Nat}

theorem State.sound_after {value : Json} {around : List Frame} (stack : Stack limit around)
    (settled : Settled limit value around) : (State.after value around).Sound limit := by
  cases around with
  | nil =>
      rcases settled with fits | dropped
      · exact fits (Nat.zero_le limit)
      · exact dropped.elim
  | cons frame around =>
      obtain ⟨kept, proper, outer⟩ := stack
      refine ⟨?_, proper.add frame.key value, outer⟩
      rcases kept with sound | dropped
      · left
        rcases settled with fits | discards
        · exact sound.add frame.key (fits sound.lt)
        · rw [show frame.container.add frame.key value = frame.container from discards value]
          exact sound
      · exact .inr dropped

theorem State.sound_read {shape : Shape} {around : List Frame} {token : Token} {next : State}
    (due : Due limit shape around) (moved : State.read limit shape around token = .ok next) :
    next.Sound limit := by
  obtain ⟨stack, proper, skips⟩ := due
  rcases State.read_cases moved with
    ⟨bracket, container, -, opens, room, rfl⟩ | ⟨value, rfl, -, skipped | ⟨scalar, -⟩⟩
  · exact ⟨room.symm.imp (sound_of_opens proper opens) skips, proper_of_opens proper opens, stack⟩
  · exact State.sound_after stack (.inr (skips skipped))
  · exact State.sound_after stack (.inl (fits_of_scalar scalar))

theorem State.sound_readKey {container : Container} {around : List Frame} {token : Token}
    {next : State} (stack : Stack limit (⟨container, ""⟩ :: around))
    (moved : State.readKey container around token = .ok next) : next.Sound limit := by
  rcases State.readKey_cases moved with ⟨skipped, rfl⟩ | ⟨key, shape, -, member, rfl⟩
  · refine ⟨stack, trivial, fun _ value => ?_⟩
    cases container with
    | table shape entries => cases shape <;> first | rfl | cases skipped
    | _ => cases skipped
  · exact ⟨stack, proper_of_member stack.2.1 member⟩

theorem State.sound_close {container : Container} {around : List Frame} {next : State}
    (stack : Stack limit (⟨container, ""⟩ :: around))
    (moved : State.close container around = .ok next) : next.Sound limit := by
  obtain ⟨kept, proper, outer⟩ := stack
  obtain ⟨value, closed, rfl⟩ := State.close_cases moved
  exact State.sound_after outer (kept.imp (fun sound _ => sound.close proper closed) id)

/-- One token keeps the invariant. -/
theorem State.sound_next {state next : State} {token : Token} (sound : state.Sound limit)
    (moved : state.next limit token = .ok next) : next.Sound limit := by
  cases State.moves_of_next moved with
  | value read => exact State.sound_read sound read
  | closeOpened _ closed => exact State.sound_close sound closed
  | closeFilled _ closed => exact State.sound_close sound closed
  | firstItem _ due read => exact State.sound_read ⟨sound, proper_of_item? sound.2.1 due⟩ read
  | firstKey _ named => exact State.sound_readKey sound named
  | moreItems _ _ due => exact ⟨sound, proper_of_item? sound.2.1 due⟩
  | moreKeys => exact sound
  | key named => exact State.sound_readKey sound named
  | colon => exact sound

/-- What a run returns fits. -/
theorem State.fits_of_run {state : State} {tokens rest : List Token} {value : Json}
    (sound : state.Sound limit) (read : State.run limit state tokens = .ok (value, rest)) :
    Fits limit 0 value := by
  fun_induction State.run limit state tokens with
  | case1 => cases read; exact sound
  | case2 => cases read
  | case3 => cases read
  | case4 state token tokens _ moved next ih => exact ih (State.sound_next sound next) read

/-- **Whatever is read is well formed and fits under the limit.** -/
theorem fits_of_readFrom {shape : Shape} {tokens rest : List Token} {value : Json}
    (proper : shape.Proper) (kept : shape.isSkipped = false)
    (read : shape.readFrom limit tokens = .ok (value, rest)) : Fits limit 0 value := by
  have sound : (State.valueDue shape []).Sound limit :=
    ⟨trivial, proper, fun skipped => absurd skipped (by simp [kept])⟩
  exact State.fits_of_run sound read

end Steps

end RunExchange.Json
