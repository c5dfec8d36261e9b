import Mathlib.Tactic
import RunExchange.Proofs.Json.Reading
import RunExchange.Proofs.Json.Tree
/-!
# Proofs.Json.Leading -- where tokens lead a reader

The reader sees one token at a time.  Some tokens lead it from one state to another,
or to a fault, whatever follows them (`Leads`); what one part leads to, the next part
goes on with (`Leads.bind`).

Lists and objects are followed once for all readers: a container takes its items or
its members one after the other, each of them read in the same way
(`leads_items`, `leads_members`).  A tree that is skipped is accepted whatever it holds
(`leads_skipped`).
-/

namespace RunExchange.Json

set_option autoImplicit false

/-! ## Leading a reader -/

/-- Whatever follows them, the tokens lead the reader from the state to the next one,
or to a fault where there is none. -/
def Leads (limit : Nat) (state : State) (tokens : List Token) : Option State → Prop
  | some next => ∀ rest, State.run limit state (tokens ++ rest) = State.run limit next rest
  | none => ∃ fault, ∀ rest, State.run limit state (tokens ++ rest) = .error fault

namespace Leads

variable {limit : Nat} {state next : State} {token : Token} {front tokens : List Token}
  {goal : Option State}

theorem step (moved : state.next limit token = .ok next) (leads : Leads limit next tokens goal) :
    Leads limit state (token :: tokens) goal := by
  cases goal with
  | none =>
      obtain ⟨fault, stops⟩ := leads
      exact ⟨fault, fun rest => (run_step moved _).trans (stops rest)⟩
  | some last => exact fun rest => (run_step moved _).trans (leads rest)

theorem fault {fault : Fault} (going : ∀ value, state ≠ .done value)
    (stopped : state.next limit token = .error fault) (tokens : List Token) :
    Leads limit state (token :: tokens) none :=
  ⟨fault, fun _ => run_fault going stopped _⟩

theorem nil (state : State) : Leads limit state [] (some state) := fun _ => rfl

/-- One part after the other: what the first one finds, the second one goes on with. -/
theorem bind {α : Type} {found : Option α} {into : α → State} {goal : α → Option State}
    (first : Leads limit state front (found.map into))
    (later : ∀ value, found = some value → Leads limit (into value) tokens (goal value)) :
    Leads limit state (front ++ tokens) (found.bind goal) := by
  cases found with
  | none =>
      obtain ⟨fault, stops⟩ := first
      exact ⟨fault, fun rest => by rw [List.append_assoc]; exact stops _⟩
  | some value =>
      have same (rest : List Token) : State.run limit state (front ++ tokens ++ rest) =
          State.run limit (into value) (tokens ++ rest) := by
        rw [List.append_assoc]
        exact first _
      have leads := later value rfl
      rw [Option.bind_some]
      cases reached : goal value with
      | none =>
          rw [reached] at leads
          obtain ⟨fault, stops⟩ := leads
          exact ⟨fault, fun rest => (same rest).trans (stops rest)⟩
      | some last =>
          rw [reached] at leads
          exact fun rest => (same rest).trans (leads rest)

theorem of_same {other : State}
    (same : ∀ rest, State.run limit state (tokens ++ rest) = State.run limit other (tokens ++ rest))
    (leads : Leads limit other tokens goal) : Leads limit state tokens goal := by
  cases goal with
  | none =>
      obtain ⟨fault, stops⟩ := leads
      exact ⟨fault, fun rest => (same rest).trans (stops rest)⟩
  | some last => exact fun rest => (same rest).trans (leads rest)

end Leads

/-! ## Containers -/

/-- The container after the items, if each of them can be read. -/
def Container.takeItems? (read : Tree → Option Json) (container : Container)
    (items : List Tree) : Option Container :=
  items.foldlM (fun container tree => (read tree).map (container.add "" ·)) container

/-- The shape of the member of a name and the frame in which it is read.  The name
counts unless the members are skipped. -/
def Container.due? (container : Container) (name : Option String) : Option (Shape × Frame) :=
  if container.isSkipped then some (.skipped, ⟨container, ""⟩)
  else name.bind fun key =>
    (container.member key).toOption.map fun shape => (shape, ⟨container, key⟩)

/-- The container after the members, if each of them may come and can be read. -/
def Container.takeMembers? (read : Shape → Tree → Option Json) (container : Container)
    (members : List (Option String × Tree)) : Option Container :=
  members.foldlM (fun container member =>
    (container.due? member.1).bind fun due =>
      (read due.1 member.2).map (due.2.container.add due.2.key ·)) container

/-- A list of items of one shape, as far as it was read. -/
def Container.Lists (item : Shape) (container : Container) : Prop :=
  ∃ items, container = .list item items

theorem Container.Lists.add {item : Shape} {container : Container} (lists : container.Lists item)
    (key : String) (value : Json) : (container.add key value).Lists item := by
  obtain ⟨items, rfl⟩ := lists
  cases item <;> exact ⟨_, rfl⟩

/-- A kind of containers with members that a member leaves in the kind. -/
structure Container.Stays (kind : Container → Prop) : Prop where
  curly : ∀ container, kind container → container.closedBy = .curly
  add : ∀ container key value, kind container → kind (container.add key value)

/-- A table of values of one shape, as far as it was read. -/
def Container.Tables (shape : Shape) (container : Container) : Prop :=
  ∃ entries, container = .table shape entries

theorem Container.stays_tables (shape : Shape) : Container.Stays (Container.Tables shape) where
  curly := by rintro _ ⟨entries, rfl⟩; rfl
  add := by
    rintro _ key value ⟨entries, rfl⟩
    cases shape <;> exact ⟨_, rfl⟩

/-- The state after the end of the container. -/
def ended? (container : Container) (around : List Frame) : Option State :=
  container.close.toOption.map (State.after · around)

theorem Tree.exists_first_token (tree : Tree) :
    ∃ first more, tree.tokens = first :: more ∧ ∀ bracket, first ≠ .closer bracket := by
  cases tree <;> exact ⟨_, _, rfl, by simp⟩

section Containers

variable {limit : Nat} {around : List Frame}

theorem leads_close {state : State} {container : Container} {token : Token}
    (going : ∀ value, state ≠ .done value)
    (closing : state.next limit token = State.close container around) :
    Leads limit state [token] (ended? container around) := by
  rw [ended?]
  cases closed : container.close with
  | error fault => exact .fault going (by rw [closing, State.close, closed]; rfl) []
  | ok value => exact .step (by rw [closing, State.close, closed]; rfl) (.nil _)

/-- A reader of items, wherever in the container they stand. -/
def ReadsItem (limit : Nat) (around : List Frame) (item : Shape) (read : Tree → Option Json)
    (tree : Tree) : Prop :=
  ∀ container : Container,
    Leads limit (.valueDue item (⟨container, ""⟩ :: around)) tree.tokens
      ((read tree).map fun value => .filled (container.add "" value) around)

section Items

variable {item : Shape} {read : Tree → Option Json}

theorem takeItems?_cons (container : Container) (tree : Tree) (items : List Tree) :
    container.takeItems? read (tree :: items) =
      (read tree).bind fun value => (container.add "" value).takeItems? read items := by
  rw [Container.takeItems?, List.foldlM_cons]
  cases read tree <;> rfl

theorem leads_moreItems {items : List Tree}
    (each : ∀ tree ∈ items, ReadsItem limit around item read tree) {container : Container}
    (lists : container.Lists item) :
    Leads limit (.filled container around) (Tree.itemTokens [.comma] items ++ [.closer .square])
      ((container.takeItems? read items).bind (ended? · around)) := by
  induction items generalizing container with
  | nil =>
      obtain ⟨done, rfl⟩ := lists
      exact leads_close (by simp) (by simp [State.next, Container.closedBy])
  | cons tree items ih =>
      obtain ⟨first, later⟩ := List.forall_mem_cons.1 each
      have comma : State.next limit (.filled container around) .comma =
          .ok (.valueDue item (⟨container, ""⟩ :: around)) := by
        obtain ⟨done, rfl⟩ := lists
        simp [State.next, Container.closedBy, Container.item?]
      simp only [Tree.itemTokens, takeItems?_cons, Option.bind_assoc, List.append_assoc,
        List.cons_append, List.nil_append]
      exact .step comma (.bind (first container) fun value _ => ih later (lists.add "" value))

/-- The items of a list and its closing bracket. -/
theorem leads_items {items : List Tree}
    (each : ∀ tree ∈ items, ReadsItem limit around item read tree) {container : Container}
    (lists : container.Lists item) :
    Leads limit (.opened container around) (Tree.itemTokens [] items ++ [.closer .square])
      ((container.takeItems? read items).bind (ended? · around)) := by
  cases items with
  | nil =>
      obtain ⟨done, rfl⟩ := lists
      exact leads_close (by simp) (by simp [State.next, Container.closedBy])
  | cons tree items =>
      obtain ⟨first, later⟩ := List.forall_mem_cons.1 each
      simp only [Tree.itemTokens, takeItems?_cons, Option.bind_assoc, List.append_assoc,
        List.nil_append]
      refine .of_same (fun rest => ?_)
        (.bind (first container) fun value _ => leads_moreItems later (lists.add "" value))
      obtain ⟨token, more, begins, solid⟩ := tree.exists_first_token
      obtain ⟨done, rfl⟩ := lists
      rw [begins]
      exact run_opened_list solid _

end Items

/-- A reader of members, wherever in a container of the kind they stand. -/
def ReadsMember (limit : Nat) (around : List Frame) (kind : Container → Prop)
    (read : Shape → Tree → Option Json) (name : Option String) (tree : Tree) : Prop :=
  ∀ container, kind container → ∀ due, container.due? name = some due →
    Leads limit (.valueDue due.1 (due.2 :: around)) tree.tokens
      ((read due.1 tree).map fun value => .filled (due.2.container.add due.2.key value) around)

section Members

variable {kind : Container → Prop} {read : Shape → Tree → Option Json}

theorem takeMembers?_cons (container : Container) (name : Option String) (tree : Tree)
    (members : List (Option String × Tree)) :
    container.takeMembers? read ((name, tree) :: members) =
      (container.due? name).bind fun due => (read due.1 tree).bind fun value =>
        (due.2.container.add due.2.key value).takeMembers? read members := by
  rw [Container.takeMembers?, List.foldlM_cons]
  cases container.due? name with
  | none => rfl
  | some due =>
      simp only [Option.bind_some]
      cases read due.1 tree <;> rfl

theorem readKey_of_due {container : Container} {name : Option String} {due : Shape × Frame}
    (found : container.due? name = some due) (around : List Frame) :
    State.readKey container around (.text name) = .ok (.colonDue due.1 due.2 around) := by
  rw [Container.due?] at found
  simp only [State.readKey]
  split at found
  · next skipped =>
      cases found
      rw [if_pos skipped]
  · next kept =>
      obtain ⟨key, rfl, found⟩ := Option.bind_eq_some_iff.1 found
      obtain ⟨shape, member, rfl⟩ := Option.map_eq_some_iff.1 found
      cases known : container.member key with
      | error fault =>
          rw [known] at member
          cases member
      | ok other =>
          rw [known] at member
          cases member
          rw [if_neg kept]
          simp only [known]
          rfl

theorem readKey_of_not_due {container : Container} {name : Option String}
    (absent : container.due? name = none) (around : List Frame) :
    ∃ fault, State.readKey container around (.text name) = .error fault := by
  rw [Container.due?] at absent
  simp only [State.readKey]
  split at absent
  · cases absent
  · next kept =>
      rw [if_neg kept]
      cases name with
      | none => exact ⟨.malformed, rfl⟩
      | some key =>
          rw [Option.bind_some, Option.map_eq_none_iff] at absent
          cases member : container.member key with
          | error fault => exact ⟨fault, by simp only [member]; rfl⟩
          | ok shape =>
              rw [member] at absent
              cases absent

/-- The name of a member and the colon after it. -/
theorem leads_name (container : Container) (around : List Frame) (name : Option String) :
    Leads limit (.keyDue container around) [.text name, .colon]
      ((container.due? name).map fun due => .valueDue due.1 (due.2 :: around)) := by
  cases found : container.due? name with
  | none =>
      obtain ⟨fault, stopped⟩ := readKey_of_not_due found around
      have stopped : State.next limit (.keyDue container around) (.text name) = .error fault :=
        stopped
      exact .fault (by simp) stopped _
  | some due =>
      refine .step (readKey_of_due found around) (.step ?_ (.nil _))
      simp [State.next]

theorem container_due {container : Container} {name : Option String} {due : Shape × Frame}
    (found : container.due? name = some due) : due.2.container = container := by
  rw [Container.due?] at found
  split at found
  · cases found
    rfl
  · obtain ⟨key, -, found⟩ := Option.bind_eq_some_iff.1 found
    obtain ⟨shape, -, rfl⟩ := Option.map_eq_some_iff.1 found
    rfl

/-- A member, and what follows it. -/
theorem leads_member {container : Container} {name : Option String} {tree : Tree}
    (reads : ReadsMember limit around kind read name tree) (isKind : kind container)
    {tokens : List Token} {goal : Shape × Frame → Json → Option State}
    (later : ∀ due value, container.due? name = some due →
      Leads limit (.filled (due.2.container.add due.2.key value) around) tokens
        (goal due value)) :
    Leads limit (.keyDue container around) (.text name :: .colon :: (tree.tokens ++ tokens))
      ((container.due? name).bind fun due => (read due.1 tree).bind (goal due)) :=
  .bind (leads_name container around name) fun due found =>
    .bind (reads container isKind due found) fun value _ => later due value found

theorem leads_moreMembers (stays : Container.Stays kind) {members : List (Option String × Tree)}
    (each : ∀ member ∈ members, ReadsMember limit around kind read member.1 member.2)
    {container : Container} (isKind : kind container) :
    Leads limit (.filled container around) (Tree.memberTokens [.comma] members ++ [.closer .curly])
      ((container.takeMembers? read members).bind (ended? · around)) := by
  have curly := stays.curly container isKind
  induction members generalizing container with
  | nil => exact leads_close (by simp) (by simp [State.next, curly])
  | cons member members ih =>
      obtain ⟨name, tree⟩ := member
      obtain ⟨first, later⟩ := List.forall_mem_cons.1 each
      have comma : State.next limit (.filled container around) .comma =
          .ok (.keyDue container around) := by
        simp [State.next, curly]
      simp only [Tree.memberTokens, takeMembers?_cons, Option.bind_assoc, List.append_assoc,
        List.cons_append, List.nil_append]
      refine .step comma (leads_member first isKind fun due value found => ?_)
      have next : kind (due.2.container.add due.2.key value) := by
        rw [container_due found]
        exact stays.add container due.2.key value isKind
      exact ih later next (stays.curly _ next)

/-- The members of an object and its closing bracket. -/
theorem leads_members (stays : Container.Stays kind) {members : List (Option String × Tree)}
    (each : ∀ member ∈ members, ReadsMember limit around kind read member.1 member.2)
    {container : Container} (isKind : kind container) :
    Leads limit (.opened container around) (Tree.memberTokens [] members ++ [.closer .curly])
      ((container.takeMembers? read members).bind (ended? · around)) := by
  have curly := stays.curly container isKind
  cases members with
  | nil => exact leads_close (by simp) (by simp [State.next, curly])
  | cons member members =>
      obtain ⟨name, tree⟩ := member
      obtain ⟨first, later⟩ := List.forall_mem_cons.1 each
      simp only [Tree.memberTokens, takeMembers?_cons, Option.bind_assoc, List.append_assoc,
        List.cons_append, List.nil_append]
      refine .of_same (fun rest => run_opened_curly curly _)
        (leads_member first isKind fun due value found => leads_moreMembers stays later ?_)
      rw [container_due found]
      exact stays.add container due.2.key value isKind

end Members

end Containers

/-! ## Trees that are skipped -/

/-- What a reader that skips a tree returns for it, and then discards. -/
def Tree.husk : Tree → Json
  | .array _ => .array []
  | .object _ => .object []
  | _ => .null

section Skipped

variable {limit : Nat}

theorem takeItems?_skipped (items : List Tree) :
    (Container.list .skipped []).takeItems? (fun tree => some tree.husk) items =
      some (.list .skipped []) := by
  induction items with
  | nil => rfl
  | cons tree items ih => rw [takeItems?_cons]; exact ih

theorem takeMembers?_skipped (members : List (Option String × Tree)) :
    (Container.table .skipped []).takeMembers? (fun _ tree => some tree.husk) members =
      some (.table .skipped []) := by
  induction members with
  | nil => rfl
  | cons member members ih => rw [takeMembers?_cons]; exact ih

/-- **A skipped tree is accepted**, whatever it holds and however deep it nests. -/
theorem leads_skipped (tree : Tree) (around : List Frame) :
    Leads limit (.valueDue .skipped around) tree.tokens (some (State.after tree.husk around)) := by
  induction tree generalizing around with
  | null | bool | number | text => exact .step rfl (.nil _)
  | array items each =>
      have reads : ∀ tree ∈ items,
          ReadsItem limit around .skipped (fun tree => some tree.husk) tree :=
        fun tree here container => each tree here (⟨container, ""⟩ :: around)
      have inner := leads_items reads (⟨[], rfl⟩ : (Container.list .skipped []).Lists .skipped)
      rw [takeItems?_skipped] at inner
      exact .step rfl inner
  | object members each =>
      have reads : ∀ member ∈ members, ReadsMember limit around (Container.Tables .skipped)
          (fun _ tree => some tree.husk) member.1 member.2 := by
        rintro member here _ ⟨entries, rfl⟩ due ⟨⟩
        exact each member here (⟨.table .skipped entries, ""⟩ :: around)
      have inner := leads_members (Container.stays_tables .skipped) reads
        (⟨[], rfl⟩ : (Container.table .skipped []).Tables .skipped)
      rw [takeMembers?_skipped] at inner
      exact .step rfl inner

end Skipped

end RunExchange.Json
