/-!
# Tables

A table maps names to values.  It lists its entries in ascending order of their names, so
that equal tables are equal lists; names are compared by code point.
-/

namespace SceneLang

/-- Entries in ascending order of their names. -/
abbrev Table (α : Type) := List (String × α)

namespace Table

variable {α β : Type}

/-- Add an entry; an entry of the same name is replaced. -/
def insert (key : String) (value : α) : Table α → Table α
  | [] => [(key, value)]
  | (k, v) :: rest =>
      if key < k then (key, value) :: (k, v) :: rest
      else if key = k then (key, value) :: rest
      else (k, v) :: insert key value rest

def find? (key : String) : Table α → Option α
  | [] => none
  | (k, v) :: rest => if key = k then some v else find? key rest

def contains (table : Table α) (key : String) : Bool :=
  (find? key table).isSome

/-- Add an entry unless the name has one. -/
def insertIfNew (key : String) (value : α) (table : Table α) : Table α :=
  if table.contains key then table else insert key value table

def erase (key : String) (table : Table α) : Table α :=
  table.filter (·.1 ≠ key)

def keys (table : Table α) : List String :=
  table.map (·.1)

/-- The table of a list of entries; the last entry of a name counts. -/
def ofList (entries : List (String × α)) : Table α :=
  entries.foldl (fun table entry => insert entry.1 entry.2 table) []

def mapValues (f : α → β) (table : Table α) : Table β :=
  table.map fun (k, v) => (k, f v)

theorem find?_insert (key other : String) (value : α) (table : Table α) :
    find? other (insert key value table) =
      if other = key then some value else find? other table := by
  induction table with
  | nil => simp [insert, find?]
  | cons entry rest ih =>
      obtain ⟨k, v⟩ := entry
      rw [insert]
      split
      · simp [find?]
      · split
        next heq =>
            subst heq
            by_cases hother : other = key <;> simp [find?, hother]
        next hne =>
            simp only [find?, ih]
            by_cases hk : other = k
            · have hkey : ¬ k = key := fun h => hne h.symm
              simp [hk, hkey]
            · simp [hk]

theorem mem_insert {key other : String} {value new : α} {table : Table α}
    (h : (other, value) ∈ insert key new table) :
    (other, value) = (key, new) ∨ (other, value) ∈ table := by
  induction table with
  | nil => exact .inl (List.mem_singleton.mp h)
  | cons entry rest ih =>
      obtain ⟨k, v⟩ := entry
      rw [insert] at h
      split at h
      · exact List.mem_cons.mp h
      split at h
      · rcases List.mem_cons.mp h with heq | hrest
        · exact .inl heq
        · exact .inr (List.mem_cons_of_mem _ hrest)
      · rcases List.mem_cons.mp h with heq | hrest
        · exact .inr (heq ▸ List.mem_cons_self)
        · rcases ih hrest with heq | hmem
          · exact .inl heq
          · exact .inr (List.mem_cons_of_mem _ hmem)

end Table

end SceneLang
