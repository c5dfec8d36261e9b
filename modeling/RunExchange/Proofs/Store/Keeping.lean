import Mathlib.Tactic
import RunExchange.Host.Outcome
import RunExchange.Host.Request
import RunExchange.Proofs.Sequence
/-!
# Proofs.Store.Keeping -- stores that keep what is written to them

After a write that succeeded, the resource reads as the text that was written and
every other one reads as before.  Every store in memory is like that; a store in
a directory is, if its layout is valid.  So the law comes with a condition, which
writing preserves (`Store.Keeping`).

Staging and finalizing write a list of texts in turn and then report a summary
(`stage_eq`, `finalize_eq`).  Writing in turn stops at the first text that cannot
be written, so whatever happens it changes no resource but those on its list
(`Keeping.putAll`).  If it succeeds, the texts lie over what was there before
(`Keeping.stage`, `Keeping.finalize`).
-/

namespace RunExchange

set_option autoImplicit false

/-! ## Texts in turn -/

namespace Store

variable {σ : Type} [Store σ]

/-- Write texts one after the other, until one cannot be written. -/
def putAll : List (Resource × String) → Action σ ExchangeError Unit
  | [] => pure ()
  | write :: writes => do
      put write.1 write.2
      putAll writes

theorem putAll_of_error {write : Resource × String} {store : σ} {cause : IoError}
    (failed : Store.write store write.1 write.2 = .error cause)
    (writes : List (Resource × String)) :
    putAll (write :: writes) store = ⟨.error (.io write.1 cause), store, announce store write.1⟩ := by
  show Action.bind (put write.1 write.2) (fun _ => putAll writes) store = _
  rw [Action.bind, put, failed]

theorem putAll_of_ok {write : Resource × String} {store written : σ}
    (done : Store.write store write.1 write.2 = .ok written)
    (writes : List (Resource × String)) :
    putAll (write :: writes) store =
      ⟨(putAll writes written).result, (putAll writes written).state,
        announce store write.1 ++ (putAll writes written).events⟩ := by
  show Action.bind (put write.1 write.2) (fun _ => putAll writes) store = _
  rw [Action.bind, put, done]

end Store

/-- The texts of the initial resources, in the order in which they are staged. -/
def Request.texts (request : Request) : List (Resource × String) :=
  [(.inputValues, Document.encode request.inputs),
   (.requiredIfConnected, Document.encode request.requiredIfConnected),
   (.declaredOutputs, Document.encode request.outputNames),
   (.stateVariables, Document.encode request.state),
   (.runNumber, Document.encode request.runNumber)]

/-- The texts of the results, in the order in which they are written. -/
def Exchange.texts (exchange : Exchange) : List (Resource × String) :=
  [(.outputValues, Document.encode exchange.outputs),
   (.closeOutputs, Document.encode exchange.closed),
   (.stateOutput, Document.encode exchange.state),
   (.indefiniteOutputs, Document.encode exchange.indefinite)]

section Composite

variable {σ : Type} [Store σ]

theorem stage_eq (request : Request) :
    (request.stage : Action σ ExchangeError Unit) =
      Store.putAll request.texts >>= fun _ => Action.emit request.staged := by
  simp only [Request.stage, Request.texts, Store.putAll, Store.save, bind_assoc, pure_bind]

theorem finalize_eq (exchange : Exchange) :
    (exchange.finalize : Action σ ExchangeError Unit) =
      Store.putAll exchange.texts >>= fun _ => Action.emit exchange.finalized := by
  simp only [Exchange.finalize, Exchange.texts, Store.putAll, Store.save, bind_assoc, pure_bind]

end Composite

/-! ## Keeping -/

/-- Stores of which `good` holds keep what is written to them. -/
structure Store.Keeping (σ : Type) [Store σ] (good : σ → Prop) : Prop where
  write {store written : σ} {resource : Resource} {text : String} :
    good store → Store.write store resource text = .ok written →
      good written ∧ Store.read written = Function.update (Store.read store) resource (.ok text)

namespace Store

variable {σ : Type} [Store σ] {good : σ → Prop} {store : σ}

/-- **Writing in turn changes no other resources**, whether it fails or not. -/
theorem Keeping.putAll (keeping : Keeping σ good) (here : good store)
    (writes : List (Resource × String)) :
    good (Store.putAll writes store).state ∧
      ∀ resource ∉ writes.map Prod.fst,
        Store.read (Store.putAll writes store).state resource = Store.read store resource := by
  induction writes generalizing store with
  | nil => exact ⟨here, fun _ _ => rfl⟩
  | cons write writes ih =>
      cases done : Store.write store write.1 write.2 with
      | error cause =>
          rw [putAll_of_error done]
          exact ⟨here, fun _ _ => rfl⟩
      | ok written =>
          obtain ⟨kept, read⟩ := keeping.write here done
          obtain ⟨left, frame⟩ := ih kept
          rw [putAll_of_ok done]
          refine ⟨left, fun resource absent => ?_⟩
          rw [List.map_cons, List.mem_cons, not_or] at absent
          rw [frame resource absent.2, read, Function.update_of_ne absent.1]

/-- Writing in turn that succeeds leaves the texts over what was there before, a
later one over an earlier one. -/
theorem Keeping.read_putAll (keeping : Keeping σ good) (here : good store)
    {writes : List (Resource × String)} (done : (Store.putAll writes store).result = .ok ()) :
    Store.read (Store.putAll writes store).state =
      writes.foldl (fun read write => Function.update read write.1 (.ok write.2))
        (Store.read store) := by
  induction writes generalizing store with
  | nil => rfl
  | cons write writes ih =>
      cases first : Store.write store write.1 write.2 with
      | error cause =>
          rw [putAll_of_error first] at done
          cases done
      | ok written =>
          obtain ⟨kept, read⟩ := keeping.write here first
          rw [putAll_of_ok first] at done ⊢
          rw [List.foldl_cons, ← read]
          exact ih kept done

end Store

/-! ## Staging and finalizing -/

/-- The text of each initial resource. -/
def Request.text? (request : Request) : Resource → Option String
  | .inputValues => some (Document.encode request.inputs)
  | .requiredIfConnected => some (Document.encode request.requiredIfConnected)
  | .declaredOutputs => some (Document.encode request.outputNames)
  | .stateVariables => some (Document.encode request.state)
  | .runNumber => some (Document.encode request.runNumber)
  | _ => none

/-- The text of each result. -/
def Exchange.text? (exchange : Exchange) : Resource → Option String
  | .outputValues => some (Document.encode exchange.outputs)
  | .closeOutputs => some (Document.encode exchange.closed)
  | .stateOutput => some (Document.encode exchange.state)
  | .indefiniteOutputs => some (Document.encode exchange.indefinite)
  | _ => none

/-- What is read when some texts lie over what was read before. -/
def overlay (texts : Resource → Option String) (below : Resource → Except IoError String)
    (resource : Resource) : Except IoError String :=
  match texts resource with
  | some text => .ok text
  | none => below resource

theorem overlay_of_text {texts : Resource → Option String}
    {below : Resource → Except IoError String} {resource : Resource} {whole : String}
    (written : texts resource = some whole) : overlay texts below resource = .ok whole := by
  rw [overlay, written]

theorem Exchange.exists_text? (exchange : Exchange) {resource : Resource}
    (result : resource ∈ Resource.results) :
    ∃ whole, exchange.text? resource = some whole := by
  cases resource <;> first | exact ⟨_, rfl⟩ | exact absurd result (by decide)

theorem Request.exists_text? (request : Request) {resource : Resource}
    (initial : resource ∈ Resource.initial) :
    ∃ whole, request.text? resource = some whole := by
  cases resource <;> first | exact ⟨_, rfl⟩ | exact absurd initial (by decide)

section Composite

variable {σ : Type} [Store σ] {good : σ → Prop} {store : σ}

/-- **What staging leaves in a store.** -/
theorem Store.Keeping.stage (keeping : Store.Keeping σ good) (here : good store)
    {request : Request} (done : (request.stage store).result = .ok ()) :
    good (request.stage store).state ∧
      Store.read (request.stage store).state = overlay request.text? (Store.read store) := by
  rw [stage_eq, Action.bind_emit] at done ⊢
  obtain ⟨kept, -⟩ := keeping.putAll here request.texts
  refine ⟨kept, (keeping.read_putAll here done).trans ?_⟩
  funext resource
  cases resource <;> rfl

/-- **What finalizing leaves in a store.** -/
theorem Store.Keeping.finalize (keeping : Store.Keeping σ good) (here : good store)
    {exchange : Exchange} (done : (exchange.finalize store).result = .ok ()) :
    good (exchange.finalize store).state ∧
      Store.read (exchange.finalize store).state =
        overlay exchange.text? (Store.read store) := by
  rw [finalize_eq, Action.bind_emit] at done ⊢
  obtain ⟨kept, -⟩ := keeping.putAll here exchange.texts
  refine ⟨kept, (keeping.read_putAll here done).trans ?_⟩
  funext resource
  cases resource <;> rfl

/-- Whether it succeeds or not, finalizing changes only results. -/
theorem Store.Keeping.read_finalize (keeping : Store.Keeping σ good) (here : good store)
    (exchange : Exchange) :
    good (exchange.finalize store).state ∧
      ∀ resource ∉ Resource.results,
        Store.read (exchange.finalize store).state resource = Store.read store resource := by
  rw [finalize_eq, Action.bind_emit]
  exact keeping.putAll here _

end Composite

/-! ## In memory -/

/-- Every store in memory keeps what is written to it. -/
theorem MemoryStore.keeping : Store.Keeping MemoryStore fun _ => True where
  write := by
    rintro store written resource text - ⟨⟩
    refine ⟨trivial, ?_⟩
    funext other
    by_cases same : other = resource
    · subst same
      rw [Function.update_self]
      simp [Store.read, MemoryStore.set]
    · rw [Function.update_of_ne same]
      simp [Store.read, MemoryStore.set, same]

theorem MemoryStore.stage_ok (request : Request) (store : MemoryStore) :
    (request.stage store).result = .ok () :=
  rfl

theorem MemoryStore.finalize_ok (exchange : Exchange) (store : MemoryStore) :
    (exchange.finalize store).result = .ok () :=
  rfl

end RunExchange
