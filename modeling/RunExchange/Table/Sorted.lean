import RunExchange.Text.ByteOrder
/-!
# Table.Sorted -- named values in the order of their names

The shape of the emitted outputs: a map from names to values kept in the byte
order of the names, whatever order they came in.  `alter` gives one name a new
value computed from its old one, if any; it touches no other name
(`find?_alter`).
-/

namespace RunExchange

set_option autoImplicit false

universe u

/-- Names in strictly increasing byte order. -/
def Ascending {α : Type u} (entries : List (String × α)) : Prop :=
  entries.Pairwise fun a b => Text.ByteLt a.1 b.1

namespace Ascending

variable {α : Type u}

/-- Give a name the value `next` of its old one, keeping the names ascending. -/
def alter (name : String) (next : Option α → α) : List (String × α) → List (String × α)
  | [] => [(name, next none)]
  | (key, value) :: rest =>
      if key = name then (key, next (some value)) :: rest
      else if Text.ByteLt name key then (name, next none) :: (key, value) :: rest
      else (key, value) :: alter name next rest

theorem mem_alter {name : String} {next : Option α → α} {entries : List (String × α)}
    {pair : String × α} (h : pair ∈ alter name next entries) :
    pair.1 = name ∨ ∃ old ∈ entries, old.1 = pair.1 := by
  induction entries with
  | nil => simp_all [alter]
  | cons head rest ih =>
      obtain ⟨key, value⟩ := head
      simp only [alter] at h
      split at h
      · next same =>
          rcases List.mem_cons.1 h with rfl | there
          · exact .inl same
          · exact .inr ⟨pair, List.mem_cons_of_mem _ there, rfl⟩
      · split at h
        · rcases List.mem_cons.1 h with rfl | there
          · exact .inl rfl
          · exact .inr ⟨pair, there, rfl⟩
        · rcases List.mem_cons.1 h with rfl | there
          · exact .inr ⟨(key, value), by simp, rfl⟩
          · rcases ih there with same | ⟨old, here, same⟩
            · exact .inl same
            · exact .inr ⟨old, List.mem_cons_of_mem _ here, same⟩

theorem alter_ascending (name : String) (next : Option α → α) {entries : List (String × α)}
    (ascending : Ascending entries) : Ascending (alter name next entries) := by
  induction entries with
  | nil => simp [Ascending, alter]
  | cons head rest ih =>
      obtain ⟨key, value⟩ := head
      have above := List.pairwise_cons.1 ascending
      simp only [alter]
      split
      · exact List.pairwise_cons.2 ⟨above.1, above.2⟩
      · next other =>
          split
          · next before =>
              refine List.pairwise_cons.2 ⟨?_, ascending⟩
              intro pair here
              rcases List.mem_cons.1 here with rfl | there
              · exact before
              · exact before.trans (above.1 pair there)
          · next notBefore =>
              refine List.pairwise_cons.2 ⟨?_, ih above.2⟩
              intro pair here
              rcases mem_alter here with same | ⟨old, there, same⟩
              · rw [same]
                exact (Text.byteLt_or_byteLt_of_ne other).resolve_right notBefore
              · exact same ▸ above.1 old there

/-- A name above all others goes to the end. -/
theorem alter_of_above {name : String} {entries : List (String × α)}
    (above : ∀ pair ∈ entries, Text.ByteLt pair.1 name) (next : Option α → α) :
    alter name next entries = entries ++ [(name, next none)] := by
  induction entries with
  | nil => rfl
  | cons head rest ih =>
      obtain ⟨key, value⟩ := head
      have below : Text.ByteLt key name := above (key, value) List.mem_cons_self
      have other : key ≠ name := by
        rintro rfl
        exact Text.not_byteLt_self key below
      have order : ¬ Text.ByteLt name key := fun back =>
        Text.not_byteLt_self key (below.trans back)
      rw [alter, if_neg other, if_neg order,
        ih fun pair here => above pair (List.mem_cons_of_mem _ here)]
      rfl

end Ascending

/-- Named values, each name once, in the byte order of the names. -/
structure SortedTable (α : Type u) where
  entries : List (String × α)
  ascending : Ascending entries

namespace SortedTable

variable {α : Type u}

@[ext] theorem ext {a b : SortedTable α} (h : a.entries = b.entries) : a = b := by
  cases a; cases b; cases h; rfl

def empty : SortedTable α := ⟨[], List.Pairwise.nil⟩

instance : EmptyCollection (SortedTable α) := ⟨empty⟩

instance : Inhabited (SortedTable α) := ⟨empty⟩

def keys (table : SortedTable α) : List String := table.entries.map (·.1)

def size (table : SortedTable α) : Nat := table.entries.length

/-- The value of a name. -/
def find? (table : SortedTable α) (name : String) : Option α :=
  (table.entries.find? fun entry => entry.1 = name).map (·.2)

/-- Give a name the value `next` of its old one. -/
def alter (table : SortedTable α) (name : String) (next : Option α → α) : SortedTable α :=
  ⟨Ascending.alter name next table.entries, Ascending.alter_ascending name next table.ascending⟩

/-- The table that a list of pairs describes, a later pair overriding an
earlier one of its name. -/
def ofList (pairs : List (String × α)) : SortedTable α :=
  pairs.foldl (fun table pair => table.alter pair.1 fun _ => pair.2) empty

theorem find?_alter (table : SortedTable α) (name other : String) (next : Option α → α) :
    (table.alter name next).find? other =
      if other = name then some (next (table.find? name)) else table.find? other := by
  obtain ⟨entries, ascending⟩ := table
  simp only [find?, alter]
  induction entries with
  | nil =>
      by_cases hit : other = name <;> simp [Ascending.alter, hit, eq_comm]
  | cons head rest ih =>
      obtain ⟨key, value⟩ := head
      have above := List.pairwise_cons.1 ascending
      by_cases same : key = name
      · subst same
        by_cases hit : other = key
        · simp [Ascending.alter, hit]
        · have miss : ¬ key = other := fun h => hit h.symm
          simp [Ascending.alter, hit, miss]
      · by_cases before : Text.ByteLt name key
        · have absent : rest.find? (fun entry => decide (entry.1 = name)) = none := by
            rw [List.find?_eq_none]
            intro pair here hit
            have := before.trans (above.1 pair here)
            rw [of_decide_eq_true hit] at this
            exact Text.not_byteLt_self name this
          by_cases hit : other = name
          · simp [Ascending.alter, same, before, hit, absent]
          · have miss : ¬ name = other := fun h => hit h.symm
            simp [Ascending.alter, same, before, hit, miss]
        · by_cases here : key = other
          · subst here
            simp [Ascending.alter, same, before]
          · simp [Ascending.alter, same, before, here, ih above.2]

theorem nodup_keys (table : SortedTable α) : table.keys.Nodup := by
  refine List.Pairwise.map _ ?_ table.ascending
  rintro a b before same
  exact Text.not_byteLt_self b.1 (same ▸ before)

theorem find?_eq_some_iff {table : SortedTable α} {name : String} {value : α} :
    table.find? name = some value ↔ (name, value) ∈ table.entries := by
  obtain ⟨entries, ascending⟩ := table
  rw [find?]
  induction entries with
  | nil => simp
  | cons entry entries ih =>
      have above := List.pairwise_cons.1 ascending
      rw [List.find?_cons]
      by_cases same : entry.1 = name
      · have unique : (name, value) ∉ entries := by
          intro there
          have before := above.1 (name, value) there
          rw [same] at before
          exact Text.not_byteLt_self name before
        simp [same, unique, Prod.ext_iff, eq_comm]
      · have other : ¬ (name, value) = entry := fun here => same (here ▸ rfl)
        simpa [same, other] using ih above.2

theorem mem_keys_iff {table : SortedTable α} {name : String} :
    name ∈ table.keys ↔ ∃ value, table.find? name = some value := by
  simp only [find?_eq_some_iff]
  constructor
  · intro here
    obtain ⟨⟨key, value⟩, there, rfl⟩ := List.mem_map.1 here
    exact ⟨value, there⟩
  · rintro ⟨value, there⟩
    exact List.mem_map_of_mem there

/-- Whatever a list of pairs describes is one of the pairs. -/
theorem mem_of_find?_ofList {pairs : List (String × α)} {name : String} {value : α}
    (found : (ofList pairs).find? name = some value) : (name, value) ∈ pairs := by
  suffices ∀ start : SortedTable α,
      (pairs.foldl (fun table pair => table.alter pair.1 fun _ => pair.2) start).find? name =
        some value → (name, value) ∈ pairs ∨ start.find? name = some value from
    (this empty found).resolve_right nofun
  clear found
  induction pairs with
  | nil => exact fun _ found => .inr found
  | cons pair pairs ih =>
      intro start found
      rcases ih _ found with there | before
      · exact .inl (List.mem_cons_of_mem _ there)
      · rw [find?_alter] at before
        split at before
        · next same =>
            cases before
            rw [same]
            exact .inl List.mem_cons_self
        · exact .inr before

theorem ofList_entries (table : SortedTable α) : ofList table.entries = table := by
  suffices ∀ (pairs : List (String × α)) (start : SortedTable α),
      Ascending (start.entries ++ pairs) →
      (pairs.foldl (fun table pair => table.alter pair.1 fun _ => pair.2) start).entries =
        start.entries ++ pairs from
    ext (this table.entries empty table.ascending)
  intro pairs
  induction pairs with
  | nil => exact fun start _ => (List.append_nil _).symm
  | cons pair rest ih =>
      intro start ascending
      have above : ∀ old ∈ start.entries, Text.ByteLt old.1 pair.1 := fun old here =>
        (List.pairwise_append.1 ascending).2.2 old here pair List.mem_cons_self
      have added : (start.alter pair.1 fun _ => pair.2).entries = start.entries ++ [pair] :=
        Ascending.alter_of_above above _
      rw [List.foldl_cons, ih _ (by rw [added]; simpa using ascending), added, List.append_assoc]
      rfl

end SortedTable

end RunExchange
