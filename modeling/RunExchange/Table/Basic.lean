import RunExchange.Table.Entries
/-!
# Table.Basic -- named values in the order of their first insertion

The shape of the inputs and of the state variables: a map from names to values
that remembers in which order the names came.  A table holds no name twice, by
construction.  Inserting keeps every name where it stands and puts a new one
last (`keys_insert`), and changes the value of no other name (`find?_insert`).
-/

namespace RunExchange

set_option autoImplicit false

universe u

/-- Named values, each name once, in insertion order. -/
structure Table (α : Type u) where
  entries : List (String × α)
  nodup : (Entries.keys entries).Nodup

namespace Table

variable {α : Type u}

@[ext] theorem ext {a b : Table α} (h : a.entries = b.entries) : a = b := by
  cases a; cases b; cases h; rfl

def empty : Table α := ⟨[], by simp⟩

instance : EmptyCollection (Table α) := ⟨empty⟩

instance : Inhabited (Table α) := ⟨empty⟩

/-- The table that a list of pairs describes, a later pair overriding an
earlier one of its name. -/
def ofList (pairs : List (String × α)) : Table α :=
  ⟨Entries.ofList pairs, Entries.nodup_keys_ofList pairs⟩

/-- The names, in the order in which they first came. -/
def keys (table : Table α) : List String := Entries.keys table.entries

def size (table : Table α) : Nat := table.entries.length

/-- The value of a name. -/
def find? (table : Table α) (name : String) : Option α := Entries.find? name table.entries

/-- Give a name a value. -/
def insert (table : Table α) (name : String) (value : α) : Table α :=
  ⟨Entries.insert name value table.entries, Entries.nodup_keys_insert _ _ table.nodup⟩

@[simp] theorem entries_empty : (∅ : Table α).entries = [] := rfl

theorem keys_insert (table : Table α) (name : String) (value : α) :
    (table.insert name value).keys =
      if name ∈ table.keys then table.keys else table.keys ++ [name] :=
  Entries.keys_insert name value table.entries

theorem find?_insert (table : Table α) (name other : String) (value : α) :
    (table.insert name value).find? other = if other = name then some value else table.find? other :=
  Entries.find?_insert name other value table.entries

theorem find?_eq_none_iff {table : Table α} {name : String} :
    table.find? name = none ↔ name ∉ table.keys :=
  Entries.find?_eq_none_iff

theorem find?_eq_some_iff {table : Table α} {name : String} {value : α} :
    table.find? name = some value ↔ (name, value) ∈ table.entries :=
  ⟨Entries.mem_of_find?, Entries.find?_of_mem table.nodup⟩

theorem ofList_entries (table : Table α) : ofList table.entries = table :=
  ext (Entries.ofList_of_nodup table.nodup)

end Table

end RunExchange
