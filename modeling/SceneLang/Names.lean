/-!
# Sets of names

A set of names lists them in ascending order by code point, each once.
-/

namespace SceneLang

abbrev Names := List String

namespace Names

def insert (name : String) : Names → Names
  | [] => [name]
  | first :: rest =>
      if name < first then name :: first :: rest
      else if name = first then first :: rest
      else first :: insert name rest

def ofList (names : List String) : Names :=
  names.foldl (fun set name => insert name set) []

theorem mem_insert (name other : String) (set : Names) :
    other ∈ insert name set ↔ other = name ∨ other ∈ set := by
  induction set with
  | nil => simp [insert]
  | cons first rest ih =>
      rw [insert]
      split
      · simp
      · split
        next heq => simp [heq]
        next =>
            simp only [List.mem_cons, ih]
            constructor
            · rintro (h | h | h) <;> simp [h]
            · rintro (h | h | h) <;> simp [h]

end Names

end SceneLang
