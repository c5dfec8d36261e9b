import Mathlib
import RunExchange.Host.Outcome
import RunExchange.Proofs.Exchange.Startup
/-!
# Proofs.Exchange.Collecting -- the first result with a problem is reported

Of each result there is a document or a problem, as of every resource: it cannot
be read, or its text is no document of its type.  Collecting returns the four
documents if there is no problem.  Else it fails with the problem of the first
result that has one, in the order of writing, whatever the later ones are like
(`collecting_reports_first_problem`).

Reading and decoding alternate, so a malformed result is reported before a later
one that is missing.
-/

namespace RunExchange

set_option autoImplicit false

/-- The document of a resource in a store. -/
def Store.Holds {σ α : Type} [Store σ] [Document α] (store : σ) (resource : Resource)
    (document : α) : Prop :=
  ∃ text, Store.read store resource = .ok text ∧ Document.decode text = .ok document

/-- The outcome has the documents of the four results. -/
structure Outcome.StandsIn {σ : Type} [Store σ] (outcome : Outcome) (store : σ) : Prop where
  outputs : Store.Holds store .outputValues outcome.outputs
  closed : Store.Holds store .closeOutputs outcome.closed
  state : Store.Holds store .stateOutput outcome.state
  indefinite : Store.Holds store .indefiniteOutputs outcome.indefinite

/-- The text of the resource can be read and is a document of its type. -/
def Store.Sound {σ : Type} [Store σ] (store : σ) (resource : Resource) : Prop :=
  ∃ text, Store.read store resource = .ok text ∧ resource.fault? text = none

/-- The error of the first resource on a list that cannot be read or is no
document of its type. -/
inductive Store.FirstProblem {σ : Type} [Store σ] (store : σ) :
    List Resource → ExchangeError → Prop
  | unreadable {resource : Resource} {cause : IoError} (later : List Resource) :
      Store.read store resource = .error cause →
      FirstProblem store (resource :: later) (.io resource cause)
  | malformed {resource : Resource} {text : String} {fault : Json.Fault}
      (later : List Resource) :
      Store.read store resource = .ok text → resource.fault? text = some fault →
      FirstProblem store (resource :: later) (.invalid resource fault)
  | later {resource : Resource} {later : List Resource} {error : ExchangeError} :
      Store.Sound store resource → FirstProblem store later error →
      FirstProblem store (resource :: later) error

/-! ## Problems -/

section Problems

variable {σ : Type} [Store σ] {store : σ}

theorem sound_iff {resource : Resource} :
    Store.Sound store resource ↔ Store.problem? store resource = none := by
  rw [Store.Sound, Store.problem?]
  cases Store.read store resource with
  | error cause => simp
  | ok text => simp

theorem firstProblem_of_problem? {resource : Resource} {error : ExchangeError}
    (problem : Store.problem? store resource = some error) (later : List Resource) :
    Store.FirstProblem store (resource :: later) error := by
  rw [Store.problem?] at problem
  split at problem
  · next cause read =>
      cases problem
      exact .unreadable later read
  · next text read =>
      obtain ⟨fault, malformed, rfl⟩ := Option.map_eq_some_iff.1 problem
      exact .malformed later read malformed

/-- The first problem is found by looking at one resource after the other. -/
theorem firstProblem_iff {resources : List Resource} {error : ExchangeError} :
    Store.FirstProblem store resources error ↔
      resources.findSome? (Store.problem? store) = some error := by
  constructor
  · intro first
    induction first with
    | unreadable later read => simp [Store.problem?, read]
    | malformed later read fault => simp [Store.problem?, read, fault]
    | later sound first ih => rw [List.findSome?_cons, sound_iff.1 sound, ih]
  · intro found
    induction resources with
    | nil => cases found
    | cons resource resources ih =>
        rw [List.findSome?_cons] at found
        split at found
        · next problem =>
            cases found
            exact firstProblem_of_problem? problem resources
        · next none => exact .later (sound_iff.2 none) (ih found)

end Problems

/-! ## Collecting -/

section Collecting

variable {σ β : Type} [Store σ] (store : σ)

/-- The result of reading some resources in turn: a good value if none has a
problem, else the first problem. -/
def ReadsInTurn (resources : List Resource) (good : β → Prop)
    (result : Except ExchangeError β) : Prop :=
  (∃ value, result = .ok value ∧ good value ∧
      resources.findSome? (Store.problem? store) = none) ∨
    ∃ error, result = .error error ∧ resources.findSome? (Store.problem? store) = some error

/-- A resource that is fetched comes before those that the rest reads. -/
theorem readsInTurn_fetch {α : Type} [Document α] {resource : Resource}
    (typed : resource.HoldsA α) {later : List Resource} {good : β → Prop}
    {next : α → Except ExchangeError β}
    (rest : ∀ document, Store.Holds store resource document →
      ReadsInTurn store later good (next document)) :
    ReadsInTurn store (resource :: later) good (Store.fetch store resource >>= next) := by
  rw [ReadsInTurn, List.findSome?_cons]
  rcases fetch_cases store typed with
    ⟨text, document, none, read, decoded, fetched⟩ | ⟨error, problem, failed⟩
  · rw [none, fetched]
    exact rest document ⟨text, read, decoded⟩
  · rw [problem, failed]
    exact .inr ⟨error, rfl, rfl⟩

theorem readsInTurn_collect :
    ReadsInTurn store Resource.results (fun outcome => outcome.StandsIn store)
      (Outcome.collect store) := by
  refine readsInTurn_fetch store (fun _ => rfl) fun outputs first => ?_
  refine readsInTurn_fetch store (fun _ => rfl) fun closed second => ?_
  refine readsInTurn_fetch store (fun _ => rfl) fun state third => ?_
  refine readsInTurn_fetch store (fun _ => rfl) fun indefinite fourth => ?_
  exact .inl ⟨_, rfl, ⟨first, second, third, fourth⟩, rfl⟩

/-- The results are read from the results alone. -/
theorem collect_of_same {τ : Type} [Store τ] {other : τ}
    (same : ∀ resource ∈ Resource.results,
      Store.read store resource = Store.read other resource) :
    Outcome.collect store = Outcome.collect other := by
  simp only [Outcome.collect, Store.fetch, same .outputValues (by decide),
    same .closeOutputs (by decide), same .stateOutput (by decide),
    same .indefiniteOutputs (by decide)]

/-- A store has one document of a resource. -/
theorem Store.Holds.eq {α : Type} [Document α] {store : σ} {resource : Resource}
    {document other : α} (here : Store.Holds store resource document)
    (there : Store.Holds store resource other) : document = other := by
  obtain ⟨text, read, decoded⟩ := here
  obtain ⟨same, readAgain, decodedAgain⟩ := there
  obtain rfl : text = same := Except.ok.inj (read.symm.trans readAgain)
  exact Except.ok.inj (decoded.symm.trans decodedAgain)

theorem Store.Holds.sound {α : Type} [Document α] {store : σ} {resource : Resource}
    {document : α} (typed : resource.HoldsA α) (here : Store.Holds store resource document) :
    Store.Sound store resource := by
  obtain ⟨text, read, decoded⟩ := here
  exact ⟨text, read, by rw [typed, Document.fault?, decoded]⟩

theorem Outcome.StandsIn.eq {store : σ} {outcome other : Outcome}
    (here : outcome.StandsIn store) (there : other.StandsIn store) : outcome = other := by
  have outputs := here.outputs.eq there.outputs
  have closed := here.closed.eq there.closed
  have state := here.state.eq there.state
  have indefinite := here.indefinite.eq there.indefinite
  cases outcome
  cases other
  simp_all

theorem Outcome.StandsIn.sound {store : σ} {outcome : Outcome} (here : outcome.StandsIn store) :
    ∀ resource ∈ Resource.results, Store.Sound store resource := by
  simp only [Resource.results, List.forall_mem_cons, List.not_mem_nil, false_imp_iff,
    implies_true, and_true]
  exact ⟨here.outputs.sound fun _ => rfl, here.closed.sound fun _ => rfl,
    here.state.sound fun _ => rfl, here.indefinite.sound fun _ => rfl⟩

/-- **Collecting reports the first result with a problem.**  It returns the four
documents exactly if each of them can be read and is a document of its type; its
error is the first problem in the order of writing; and nothing but the results
matters. -/
theorem collecting_reports_first_problem :
    (∀ outcome, Outcome.collect store = .ok outcome ↔ outcome.StandsIn store) ∧
      ((∃ outcome, Outcome.collect store = .ok outcome) ↔
        ∀ resource ∈ Resource.results, Store.Sound store resource) ∧
      (∀ error, Outcome.collect store = .error error ↔
        Store.FirstProblem store Resource.results error) ∧
      ∀ (τ : Type) [Store τ] (other : τ),
        (∀ resource ∈ Resource.results,
          Store.read store resource = Store.read other resource) →
        Outcome.collect store = Outcome.collect other := by
  have sound : (∀ resource ∈ Resource.results, Store.Sound store resource) ↔
      Resource.results.findSome? (Store.problem? store) = none := by
    simp only [List.findSome?_eq_none_iff, sound_iff]
  rw [sound]
  simp only [firstProblem_iff]
  refine ⟨fun outcome => ?_, ?_, fun error => ?_, fun τ _ other same => collect_of_same store same⟩
  all_goals rcases readsInTurn_collect store with
    ⟨collected, done, stands, none⟩ | ⟨problem, failed, some⟩
  · rw [done, Except.ok.injEq]
    exact ⟨fun same => same ▸ stands, stands.eq⟩
  · rw [failed]
    refine ⟨nofun, fun stands => ?_⟩
    rw [sound.1 stands.sound] at some
    cases some
  · exact iff_of_true ⟨collected, done⟩ none
  · rw [failed, some]
    exact iff_of_false nofun nofun
  · rw [done, none]
    exact iff_of_false nofun nofun
  · rw [failed, some, Except.error.injEq, Option.some.injEq]

/-- A list that ends too early is reported, although the state is missing. -/
example : Outcome.collect ((MemoryStore.empty.set .outputValues "{}").set .closeOutputs "[") =
    .error (.invalid .closeOutputs .truncated) := by
  cbv

end Collecting

end RunExchange
