/-!
# Table.Entries -- lists of named values

A list of pairs read as a finite map: the first pair of a name is the one that
counts.  `insert` replaces the value of a name where it stands and puts a new
name last, so it never moves, drops or repeats a name: the names after it are
the names before it, with the new one appended if it was not there
(`keys_insert`), and only the inserted name is looked up differently
(`find?_insert`).
-/

namespace RunExchange.Entries

set_option autoImplicit false

universe u

variable {α : Type u}

/-- The names, in the order of the list. -/
def keys (entries : List (String × α)) : List String :=
  entries.map (·.1)

/-- The value of a name. -/
def find? (name : String) : List (String × α) → Option α
  | [] => none
  | (key, value) :: rest => if key = name then some value else find? name rest

/-- Give a name a value: in place if the name is there, else at the end. -/
def insert (name : String) (value : α) : List (String × α) → List (String × α)
  | [] => [(name, value)]
  | (key, old) :: rest =>
      if key = name then (name, value) :: rest else (key, old) :: insert name value rest

/-- The map that a list of pairs describes when a later pair overrides an
earlier one of its name. -/
def ofList (pairs : List (String × α)) : List (String × α) :=
  pairs.foldl (fun entries pair => insert pair.1 pair.2 entries) []

@[simp] theorem keys_nil : keys ([] : List (String × α)) = [] := rfl

@[simp] theorem keys_cons (pair : String × α) (rest : List (String × α)) :
    keys (pair :: rest) = pair.1 :: keys rest := rfl

theorem keys_insert (name : String) (value : α) (entries : List (String × α)) :
    keys (insert name value entries) =
      if name ∈ keys entries then keys entries else keys entries ++ [name] := by
  induction entries with
  | nil => simp [insert, keys]
  | cons pair rest ih =>
      obtain ⟨key, old⟩ := pair
      by_cases same : key = name
      · simp [insert, same]
      · have other : ¬ name = key := fun h => same h.symm
        simp only [insert, same, if_false, keys_cons, ih, List.mem_cons, other, false_or]
        split <;> simp

theorem nodup_keys_insert (name : String) (value : α) {entries : List (String × α)}
    (distinct : (keys entries).Nodup) : (keys (insert name value entries)).Nodup := by
  rw [keys_insert]
  split
  · exact distinct
  · next absent =>
      refine List.nodup_append.2 ⟨distinct, by simp, ?_⟩
      intro a here b there same
      rw [List.mem_singleton] at there
      exact absent (there ▸ same ▸ here)

theorem find?_insert (name other : String) (value : α) (entries : List (String × α)) :
    find? other (insert name value entries) =
      if other = name then some value else find? other entries := by
  induction entries with
  | nil => simp [insert, find?, eq_comm]
  | cons pair rest ih =>
      obtain ⟨key, old⟩ := pair
      by_cases same : key = name
      · subst same
        by_cases hit : other = key <;> simp [insert, find?, hit, eq_comm]
      · by_cases hit : key = other
        · simp [insert, find?, same, ← hit]
        · simp [insert, find?, same, hit, ih]

theorem find?_eq_none_iff {name : String} {entries : List (String × α)} :
    find? name entries = none ↔ name ∉ keys entries := by
  induction entries with
  | nil => simp [find?]
  | cons pair rest ih =>
      obtain ⟨key, old⟩ := pair
      by_cases same : key = name
      · simp [find?, same]
      · have other : ¬ name = key := fun h => same h.symm
        simp [find?, same, other, ih]

theorem mem_of_find? {name : String} {value : α} {entries : List (String × α)}
    (found : find? name entries = some value) : (name, value) ∈ entries := by
  induction entries with
  | nil => simp [find?] at found
  | cons entry entries ih =>
      obtain ⟨key, other⟩ := entry
      rw [find?] at found
      split at found
      · next same =>
          cases found
          rw [same]
          exact List.mem_cons_self
      · exact List.mem_cons_of_mem _ (ih found)

theorem find?_of_mem {name : String} {value : α} {entries : List (String × α)}
    (distinct : (keys entries).Nodup) (here : (name, value) ∈ entries) :
    find? name entries = some value := by
  induction entries with
  | nil => simp at here
  | cons entry entries ih =>
      obtain ⟨key, other⟩ := entry
      rw [keys_cons, List.nodup_cons] at distinct
      rcases List.mem_cons.1 here with same | there
      · cases same
        simp [find?]
      · have apart : key ≠ name := by
          rintro rfl
          exact distinct.1 (List.mem_map_of_mem (f := (·.1)) there)
        simp [find?, apart, ih distinct.2 there]

theorem mem_insert {name : String} {value : α} {entries : List (String × α)}
    {entry : String × α} (here : entry ∈ insert name value entries) :
    entry = (name, value) ∨ entry ∈ entries := by
  induction entries with
  | nil => exact .inl (List.mem_singleton.1 here)
  | cons head entries ih =>
      obtain ⟨key, old⟩ := head
      rw [insert] at here
      split at here
      · rcases List.mem_cons.1 here with same | there
        · exact .inl same
        · exact .inr (List.mem_cons_of_mem _ there)
      · rcases List.mem_cons.1 here with same | there
        · exact .inr (same ▸ List.mem_cons_self)
        · exact (ih there).imp id (List.mem_cons_of_mem _)

/-- A new name goes to the end. -/
theorem insert_of_not_mem {name : String} {entries : List (String × α)}
    (fresh : name ∉ keys entries) (value : α) :
    insert name value entries = entries ++ [(name, value)] := by
  induction entries with
  | nil => rfl
  | cons pair rest ih =>
      rw [keys_cons, List.mem_cons, not_or] at fresh
      simp [insert, Ne.symm fresh.1, ih fresh.2]

theorem nodup_keys_ofList (pairs : List (String × α)) : (keys (ofList pairs)).Nodup := by
  suffices ∀ entries : List (String × α), (keys entries).Nodup →
      (keys (pairs.foldl (fun entries pair => insert pair.1 pair.2 entries) entries)).Nodup from
    this [] (by simp)
  induction pairs with
  | nil => exact fun _ distinct => distinct
  | cons pair rest ih =>
      exact fun entries distinct => ih _ (nodup_keys_insert _ _ distinct)

/-- A list that names nothing twice describes itself. -/
theorem ofList_of_nodup {pairs : List (String × α)} (distinct : (keys pairs).Nodup) :
    ofList pairs = pairs := by
  suffices ∀ (entries : List (String × α)), (keys (entries ++ pairs)).Nodup →
      pairs.foldl (fun entries pair => insert pair.1 pair.2 entries) entries = entries ++ pairs by
    exact this [] distinct
  clear distinct
  induction pairs with
  | nil => simp
  | cons pair rest ih =>
      intro entries distinct
      have fresh : pair.1 ∉ keys entries := by
        intro here
        have split := List.nodup_append.1 (by simpa [keys] using distinct :
          (entries.map (·.1) ++ (pair.1 :: rest.map (·.1))).Nodup)
        exact split.2.2 _ here _ (by simp) rfl
      rw [List.foldl_cons, insert_of_not_mem fresh, ih]
      · simp
      · simpa using distinct

end RunExchange.Entries
