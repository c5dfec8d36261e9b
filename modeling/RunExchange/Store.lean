import RunExchange.Action
import RunExchange.Config.Layout
import RunExchange.Exchange.Error
import RunExchange.Files.Tree
/-!
# Store -- where the documents are kept

A store holds a text for some of the nine resources.  Reading and writing may
fail, and a store may announce a write before it is tried.  There are two:
`MemoryStore`, a map from resources to texts, and `DirectoryStore`, a layout
over a file tree.

`fetch` reads and decodes a resource, `save` encodes and writes it; the error of
either names the resource.
-/

namespace RunExchange

set_option autoImplicit false

class Store (σ : Type) where
  read : σ → Resource → Except IoError String
  write : σ → Resource → String → Except IoError σ
  /-- The events that precede a write. -/
  announce : σ → Resource → List Event

namespace Store

variable {σ α : Type} [Store σ] [Document α]

/-- The document of a resource. -/
def fetch (store : σ) (resource : Resource) : Except ExchangeError α := do
  let text ← (read store resource).mapError (.io resource)
  (Document.decode text).mapError (.invalid resource)

/-- Write the text of a resource. -/
def put (resource : Resource) (text : String) : Action σ ExchangeError Unit := fun store =>
  match write store resource text with
  | .error cause => ⟨.error (.io resource cause), store, announce store resource⟩
  | .ok written => ⟨.ok (), written, announce store resource⟩

/-- Write the document of a resource. -/
def save (resource : Resource) (document : α) : Action σ ExchangeError Unit :=
  put resource (Document.encode document)

end Store

/-! ## In memory -/

/-- Texts of resources, absent ones having none. -/
structure MemoryStore where
  text : Resource → Option String

namespace MemoryStore

def empty : MemoryStore := ⟨fun _ => none⟩

instance : Inhabited MemoryStore := ⟨empty⟩

/-- The store with another text for one resource. -/
def set (store : MemoryStore) (resource : Resource) (text : String) : MemoryStore :=
  ⟨fun other => if other = resource then some text else store.text other⟩

instance : Store MemoryStore where
  read store resource :=
    match store.text resource with
    | none => .error .absent
    | some text => .ok text
  write store resource text := .ok (store.set resource text)
  announce _ _ := []

end MemoryStore

/-! ## In a directory -/

/-- The files of a layout in a file tree. -/
structure DirectoryStore where
  layout : Layout
  tree : FileTree

namespace DirectoryStore

instance : Store DirectoryStore where
  read store resource := store.tree.readText (store.layout.path resource)
  write store resource text := do
    let tree ← store.tree.write (store.layout.path resource) text
    return { store with tree }
  announce store resource :=
    [{ severity := .trace, origin := .store,
       message := s!"Writing {resource.name} to {Text.lossy (store.layout.path resource)}" }]

end DirectoryStore

end RunExchange
