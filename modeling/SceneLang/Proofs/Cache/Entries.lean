import SceneLang.Cache

/-!
# What the entries of a cache have in common

A property that holds of every entry of a cache still holds of every entry after a look-up, a
removal and an eviction, since none of them makes up an entry; a storing adds the one entry
that it is given.
-/

namespace SceneLang

namespace Table

variable {α : Type}

theorem mem_of_find? {key : String} {value : α} {table : Table α}
    (h : find? key table = some value) : (key, value) ∈ table := by
  induction table with
  | nil => contradiction
  | cons entry rest ih =>
      obtain ⟨k, v⟩ := entry
      rw [find?] at h
      split at h
      next hkey =>
        subst hkey
        cases h
        exact List.mem_cons_self
      next => exact List.mem_cons_of_mem _ (ih h)

theorem mem_of_mem_erase {key other : String} {value : α} {table : Table α}
    (h : (other, value) ∈ erase key table) : (other, value) ∈ table :=
  (List.mem_filter.mp h).1

end Table

namespace Cache

variable {α : Type} {P : Digest → α → Prop} {cache : Cache α}

/-- The property holds of the digest and the content of every entry. -/
def All (P : Digest → α → Prop) (cache : Cache α) : Prop :=
  ∀ id entry, (id, entry) ∈ cache.entries → P entry.digest entry.content

theorem all_empty (capacity : Nat) : All P (empty capacity) := by
  intro id entry hmem
  cases hmem

theorem All.clear : All P cache.clear := by
  intro id entry hmem
  cases hmem

theorem All.imp {Q : Digest → α → Prop} (h : All P cache)
    (himp : ∀ digest content, P digest content → Q digest content) : All Q cache :=
  fun id entry hmem => himp _ _ (h id entry hmem)

theorem All.of_peek? (h : All P cache) {id : String} {entry : CacheEntry α}
    (hpeek : cache.peek? id = some entry) : P entry.digest entry.content :=
  h id entry (Table.mem_of_find? hpeek)

/-- A look-up finds contents of the digest only, and only of an entry. -/
theorem All.get (h : All P cache) (id : String) (digest : Digest) :
    (∀ content, (cache.get id digest).1 = some content → P digest content) ∧
      All P (cache.get id digest).2 := by
  unfold Cache.get
  cases hfound : (cache.peek? id).filter (·.digest = digest) with
  | none =>
      constructor
      · intro content hcontent
        contradiction
      · exact h
  | some entry =>
      obtain ⟨hpeek, hdigest⟩ := Option.filter_eq_some_iff.mp hfound
      rw [decide_eq_true_eq] at hdigest
      have hentry := h.of_peek? hpeek
      constructor
      · intro content hcontent
        cases hcontent
        rwa [hdigest] at hentry
      · intro other found hmem
        rcases Table.mem_insert hmem with heq | hmem
        · cases heq
          exact hentry
        · exact h other found hmem

theorem All.evict (h : All P cache) : All P cache.evict := by
  unfold Cache.evict
  split
  · exact h
  · intro id entry hmem
    exact h id entry (Table.mem_of_mem_erase hmem)

theorem All.makeRoom (h : All P cache) (id : String) : All P (cache.makeRoom id) := by
  unfold Cache.makeRoom
  split
  · intro other entry hmem
    exact h other entry (Table.mem_of_mem_erase hmem)
  · split
    · exact h.evict
    · exact h

theorem All.set (h : All P cache) (id : String) {digest : Digest} {content : α}
    (hnew : P digest content) : All P (cache.set id digest content) := by
  intro other entry hmem
  rcases Table.mem_insert hmem with heq | hmem
  · cases heq
    exact hnew
  · exact h.makeRoom id other entry hmem

theorem All.remove (h : All P cache) (id : String) : All P (cache.remove id).2 := by
  unfold Cache.remove
  split
  · intro other entry hmem
    exact h other entry (Table.mem_of_mem_erase hmem)
  · exact h

end Cache

end SceneLang
