import Mathlib.Data.List.Nodup
import SceneLang.Cache
import SceneLang.Proofs.Table.Ascending

/-!
# Caches as lists in order of use

A shelf is a plain list of contents, the one that was used least recently in front.  Whatever
sequence of operations is carried out on an empty cache and on an empty shelf with room for as
many contents, both give the same answers and look the same from outside after each operation.

The proof keeps a list of the rows of the cache in the order of their last use.  The table of
the cache holds the same rows, its queue lists their times and names, and the shelf is what is
left of the rows when the times are dropped.
-/

namespace SceneLang

variable {α : Type}

/-! ## Operations -/

inductive CacheOperation (α : Type) where
  | set (id : String) (digest : Digest) (content : α)
  | get (id : String) (digest : Digest)
  | peek (id : String)
  | contains (id : String)
  | remove (id : String)
  | clear

inductive CacheAnswer (α : Type) where
  | done
  | content (found : Option α)
  | entry (found : Option (Digest × α))
  | held (found : Bool)

/-- What can be seen of a cache besides the answers; the names are those of the contents, least
recently used first. -/
structure CacheView where
  keys : List String
  size : Nat
  hits : Nat
  misses : Nat
  evictions : Nat

namespace Cache

def perform (cache : Cache α) : CacheOperation α → CacheAnswer α × Cache α
  | .set id digest content => (.done, cache.set id digest content)
  | .get id digest => (.content (cache.get id digest).1, (cache.get id digest).2)
  | .peek id => (.entry ((cache.peek? id).map fun e => (e.digest, e.content)), cache)
  | .contains id => (.held (cache.contains id), cache)
  | .remove id =>
      (.entry ((cache.remove id).1.map fun e => (e.digest, e.content)), (cache.remove id).2)
  | .clear => (.done, cache.clear)

def view (cache : Cache α) : CacheView :=
  ⟨cache.keys, cache.size, cache.hits, cache.misses, cache.evictions⟩

def performAll (cache : Cache α) : List (CacheOperation α) → Cache α
  | [] => cache
  | operation :: rest => (cache.perform operation).2.performAll rest

/-- The answers to one operation after another, each with what can be seen afterwards. -/
def trace (cache : Cache α) : List (CacheOperation α) → List (CacheAnswer α × CacheView)
  | [] => []
  | operation :: rest =>
      let (answer, next) := cache.perform operation
      (answer, next.view) :: next.trace rest

end Cache

/-! ## Shelves -/

structure ShelfItem (α : Type) where
  id : String
  digest : Digest
  content : α

structure Shelf (α : Type) where
  /-- Least recently used first. -/
  items : List (ShelfItem α)
  room : Nat
  hits : Nat
  misses : Nat
  evictions : Nat

namespace Shelf

def empty (capacity : Nat) : Shelf α := ⟨[], max capacity 1, 0, 0, 0⟩

def find? (shelf : Shelf α) (id : String) : Option (ShelfItem α) :=
  shelf.items.find? (·.id = id)

/-- The items without the one of a name. -/
def others (shelf : Shelf α) (id : String) : List (ShelfItem α) :=
  shelf.items.filter (·.id ≠ id)

/-- An item of the digest moves to the back. -/
def get (shelf : Shelf α) (id : String) (digest : Digest) : Option α × Shelf α :=
  match (shelf.find? id).filter (·.digest = digest) with
  | some item =>
      (some item.content,
        { shelf with items := shelf.others id ++ [item], hits := shelf.hits + 1 })
  | none => (none, { shelf with misses := shelf.misses + 1 })

/-- A new item stands at the back.  It takes the place of one of its name; without one, the item
in front is dropped if the shelf is full. -/
def set (shelf : Shelf α) (id : String) (digest : Digest) (content : α) : Shelf α :=
  let item : ShelfItem α := ⟨id, digest, content⟩
  if (shelf.find? id).isSome then { shelf with items := shelf.others id ++ [item] }
  else if shelf.items.length < shelf.room then { shelf with items := shelf.items ++ [item] }
  else { shelf with items := shelf.items.tail ++ [item], evictions := shelf.evictions + 1 }

def remove (shelf : Shelf α) (id : String) : Shelf α :=
  { shelf with items := shelf.others id }

def clear (shelf : Shelf α) : Shelf α := { shelf with items := [] }

def perform (shelf : Shelf α) : CacheOperation α → CacheAnswer α × Shelf α
  | .set id digest content => (.done, shelf.set id digest content)
  | .get id digest => (.content (shelf.get id digest).1, (shelf.get id digest).2)
  | .peek id => (.entry ((shelf.find? id).map fun item => (item.digest, item.content)), shelf)
  | .contains id => (.held (shelf.find? id).isSome, shelf)
  | .remove id =>
      (.entry ((shelf.find? id).map fun item => (item.digest, item.content)), shelf.remove id)
  | .clear => (.done, shelf.clear)

def view (shelf : Shelf α) : CacheView :=
  ⟨shelf.items.map ShelfItem.id, shelf.items.length, shelf.hits, shelf.misses, shelf.evictions⟩

def performAll (shelf : Shelf α) : List (CacheOperation α) → Shelf α
  | [] => shelf
  | operation :: rest => (shelf.perform operation).2.performAll rest

def trace (shelf : Shelf α) : List (CacheOperation α) → List (CacheAnswer α × CacheView)
  | [] => []
  | operation :: rest =>
      let (answer, next) := shelf.perform operation
      (answer, next.view) :: next.trace rest

theorem room_perform (shelf : Shelf α) (operation : CacheOperation α) :
    (shelf.perform operation).2.room = shelf.room := by
  cases operation with
  | set id digest content =>
      simp only [perform, set]
      split
      · rfl
      · split <;> rfl
  | get id digest =>
      simp only [perform, get]
      split <;> rfl
  | peek | contains | remove | clear => rfl

theorem room_performAll (shelf : Shelf α) (operations : List (CacheOperation α)) :
    (shelf.performAll operations).room = shelf.room := by
  induction operations generalizing shelf with
  | nil => rfl
  | cons operation rest ih => rw [performAll, ih, room_perform]

end Shelf

/-! ## Rows in order of use -/

abbrev CacheRow (α : Type) := String × CacheEntry α

namespace CacheRow

def use (row : CacheRow α) : Nat × String := (row.2.lastUsed, row.1)

def item (row : CacheRow α) : ShelfItem α := ⟨row.1, row.2.digest, row.2.content⟩

end CacheRow

/-- The rows are all with different names, and each was used later than the one before. -/
structure InUseOrder (rows : List (CacheRow α)) : Prop where
  names : (rows.map Prod.fst).Nodup
  times : rows.Pairwise fun a b => a.2.lastUsed < b.2.lastUsed

namespace InUseOrder

variable {rows : List (CacheRow α)} {id : String} {entry : CacheEntry α}

theorem filter (h : InUseOrder rows) (keep : CacheRow α → Bool) : InUseOrder (rows.filter keep) :=
  ⟨h.names.sublist (List.filter_sublist.map _), h.times.filter keep⟩

theorem tail (h : InUseOrder rows) : InUseOrder rows.tail :=
  ⟨h.names.sublist ((List.tail_sublist rows).map _), h.times.sublist (List.tail_sublist rows)⟩

theorem concat (h : InUseOrder rows) (hname : ∀ row ∈ rows, row.1 ≠ id)
    (htime : ∀ row ∈ rows, row.2.lastUsed < entry.lastUsed) :
    InUseOrder (rows ++ [(id, entry)]) := by
  constructor
  · rw [List.map_append, List.nodup_append]
    simpa using ⟨h.names, fun name e hmem => hname (name, e) hmem⟩
  · simpa [List.pairwise_append] using ⟨h.times, fun name e hmem => htime (name, e) hmem⟩

theorem eq_of_name (h : InUseOrder rows) (hentry : (id, entry) ∈ rows) {row : CacheRow α}
    (hrow : row ∈ rows) (hname : row.1 = id) : row = (id, entry) :=
  List.inj_on_of_nodup_map h.names hrow hentry hname

theorem eq_of_time (h : InUseOrder rows) (hentry : (id, entry) ∈ rows) {row : CacheRow α}
    (hrow : row ∈ rows) (htime : row.2.lastUsed = entry.lastUsed) : row = (id, entry) := by
  have hdistinct : (rows.map fun row => row.2.lastUsed).Nodup := by
    rw [List.Nodup, List.pairwise_map]
    exact h.times.imp fun hlt => Nat.ne_of_lt hlt
  exact List.inj_on_of_nodup_map hdistinct hrow hentry htime

/-- To forget the time of a row is to leave out the rows of its name. -/
theorem forget_use (h : InUseOrder rows) (hentry : (id, entry) ∈ rows) :
    Cache.forget (rows.map CacheRow.use) entry.lastUsed =
      (rows.filter (·.1 ≠ id)).map CacheRow.use := by
  rw [Cache.forget, List.filter_map]
  congr 1
  apply List.filter_congr
  intro row hrow
  have hiff : row.2.lastUsed = entry.lastUsed ↔ row.1 = id := by
    constructor
    · intro htime
      rw [h.eq_of_time hentry hrow htime]
    · intro hname
      rw [h.eq_of_name hentry hrow hname]
  simp [CacheRow.use, hiff]

end InUseOrder

/-! ## Caches and their rows -/

/-- The rows of a cache in order of use, and the shelf that they make up. -/
structure Cache.Shelved (cache : Cache α) (rows : List (CacheRow α)) (shelf : Shelf α) : Prop where
  order : InUseOrder rows
  ascending : cache.entries.Ascending
  entries : rows.Perm cache.entries
  recency : cache.recency = rows.map CacheRow.use
  clock : ∀ row ∈ rows, row.2.lastUsed ≤ cache.clock
  items : shelf.items = rows.map CacheRow.item
  room : shelf.room = cache.capacity
  within : rows.length ≤ cache.capacity
  positive : 0 < cache.capacity
  hits : shelf.hits = cache.hits
  misses : shelf.misses = cache.misses
  evictions : shelf.evictions = cache.evictions

namespace Cache.Shelved

variable {cache : Cache α} {rows : List (CacheRow α)} {shelf : Shelf α} {id : String}
  {digest : Digest} {entry : CacheEntry α}

theorem empty (capacity : Nat) :
    (Cache.empty capacity : Cache α).Shelved [] (Shelf.empty capacity) where
  order := ⟨List.nodup_nil, List.Pairwise.nil⟩
  ascending := Table.ascending_nil
  entries := List.Perm.nil
  recency := rfl
  clock := by simp
  items := rfl
  room := rfl
  within := Nat.zero_le _
  positive := Nat.le_max_right capacity 1
  hits := rfl
  misses := rfl
  evictions := rfl

theorem peek?_eq_some_iff (h : cache.Shelved rows shelf) :
    cache.peek? id = some entry ↔ (id, entry) ∈ rows := by
  rw [Cache.peek?, h.ascending.find?_eq_some_iff, h.entries.mem_iff]

theorem name_ne_of_peek? (h : cache.Shelved rows shelf) (hpeek : cache.peek? id = none)
    {row : CacheRow α} (hrow : row ∈ rows) : row.1 ≠ id := by
  rintro rfl
  have hfound := h.peek?_eq_some_iff.mpr hrow
  rw [hpeek] at hfound
  contradiction

theorem view_eq (h : cache.Shelved rows shelf) : cache.view = shelf.view := by
  have hkeys : cache.keys = shelf.items.map ShelfItem.id := by
    simp [Cache.keys, h.recency, h.items, CacheRow.use, CacheRow.item]
  have hsize : cache.size = shelf.items.length := by
    simp [Cache.size, h.items, h.entries.length_eq]
  simp [Cache.view, Shelf.view, hkeys, hsize, h.hits, h.misses, h.evictions]

/-- Both find the same under a name. -/
theorem find?_eq (h : cache.Shelved rows shelf) (id : String) :
    shelf.find? id = (cache.peek? id).map fun entry => CacheRow.item (id, entry) := by
  rw [Shelf.find?, h.items]
  cases hpeek : cache.peek? id with
  | none =>
      rw [Option.map_none, List.find?_eq_none]
      intro item hitem
      rcases List.mem_map.mp hitem with ⟨row, hrow, rfl⟩
      have hname := h.name_ne_of_peek? hpeek hrow
      simp [CacheRow.item, hname]
  | some entry =>
      have hrow := h.peek?_eq_some_iff.mp hpeek
      have hitem : CacheRow.item (id, entry) ∈ rows.map CacheRow.item :=
        List.mem_map_of_mem hrow
      cases hfind : (rows.map CacheRow.item).find? (·.id = id) with
      | none => simpa [CacheRow.item] using List.find?_eq_none.mp hfind _ hitem
      | some found =>
          have hname : found.id = id := by simpa using List.find?_some hfind
          rcases List.mem_map.mp (List.mem_of_find?_eq_some hfind) with ⟨row, hmem, rfl⟩
          rw [h.order.eq_of_name hrow hmem hname, Option.map_some]

theorem others_eq (h : cache.Shelved rows shelf) (id : String) :
    shelf.others id = (rows.filter (·.1 ≠ id)).map CacheRow.item := by
  rw [Shelf.others, h.items, List.filter_map]
  rfl

theorem length_without (h : cache.Shelved rows shelf) (hentry : (id, entry) ∈ rows) :
    (rows.filter (·.1 ≠ id)).length < cache.capacity := by
  have hless : (rows.filter (·.1 ≠ id)).length < rows.length :=
    List.length_filter_lt_length_iff_exists.mpr ⟨(id, entry), hentry, by simp⟩
  exact Nat.lt_of_lt_of_le hless h.within

/-- What is left when the row of a name is taken out. -/
theorem without (h : cache.Shelved rows shelf) (hentry : (id, entry) ∈ rows) :
    { cache with
      entries := cache.entries.erase id
      recency := forget cache.recency entry.lastUsed }.Shelved (rows.filter (·.1 ≠ id))
        { shelf with items := shelf.others id } where
  order := h.order.filter _
  ascending := h.ascending.erase id
  entries := h.entries.filter _
  recency := by
    rw [h.recency]
    exact h.order.forget_use hentry
  clock := fun row hrow => h.clock row (List.mem_filter.mp hrow).1
  items := h.others_eq id
  room := h.room
  within := Nat.le_trans (List.length_filter_le _ _) h.within
  positive := h.positive
  hits := h.hits
  misses := h.misses
  evictions := h.evictions

/-- A row of a new name may stand at the back, with the time that the clock shows next. -/
theorem concat (h : cache.Shelved rows shelf) (id : String) (entry : CacheEntry α)
    (hname : ∀ row ∈ rows, row.1 ≠ id) (hroom : rows.length < cache.capacity) (htime : entry.lastUsed = cache.clock + 1) :
    { cache with
      clock := cache.clock + 1
      entries := cache.entries.insert id entry
      recency := cache.recency ++ [(cache.clock + 1, id)] }.Shelved (rows ++ [(id, entry)])
        { shelf with items := shelf.items ++ [CacheRow.item (id, entry)] } where
  order := by
    apply h.order.concat hname
    intro row hrow
    have hclock := h.clock row hrow
    omega
  ascending := h.ascending.insert id entry
  entries := by
    have hgone : cache.entries.erase id = cache.entries :=
      Table.erase_eq_self fun row hrow => hname row (h.entries.mem_iff.mpr hrow)
    have hinsert := h.ascending.insert_perm id entry
    rw [hgone] at hinsert
    exact (List.perm_append_singleton _ _).trans ((h.entries.cons _).trans hinsert.symm)
  recency := by simp [h.recency, CacheRow.use, htime]
  clock := by
    intro row hrow
    rcases List.mem_append.mp hrow with hrow | hrow
    · exact Nat.le_trans (h.clock row hrow) (Nat.le_succ _)
    · rw [List.mem_singleton.mp hrow]
      exact Nat.le_of_eq htime
  items := by simp [h.items]
  room := h.room
  within := by
    rw [List.length_append]
    exact hroom
  positive := h.positive
  hits := h.hits
  misses := h.misses
  evictions := h.evictions

/-- The row in front is dropped along with the item in front. -/
theorem drop_front {row : CacheRow α} {rest : List (CacheRow α)}
    (h : cache.Shelved (row :: rest) shelf) :
    { cache with
      entries := cache.entries.erase row.1
      recency := rest.map CacheRow.use
      evictions := cache.evictions + 1 }.Shelved rest
        { shelf with items := shelf.items.tail, evictions := shelf.evictions + 1 } where
  order := h.order.tail
  ascending := h.ascending.erase row.1
  entries := by
    have hnames := (List.nodup_cons.mp h.order.names).1
    have hrest : (row :: rest).filter (·.1 ≠ row.1) = rest := by
      rw [List.filter_cons_of_neg (by simp), List.filter_eq_self]
      intro other hmem
      have hne : other.1 ≠ row.1 := by
        intro hname
        exact hnames (hname ▸ List.mem_map_of_mem hmem)
      simpa using hne
    have hperm := h.entries.filter (·.1 ≠ row.1)
    rwa [hrest] at hperm
  recency := rfl
  clock := fun other hmem => h.clock other (List.mem_cons_of_mem row hmem)
  items := by simp [h.items]
  room := h.room
  within := Nat.le_of_succ_le h.within
  positive := h.positive
  hits := h.hits
  misses := h.misses
  evictions := congrArg (· + 1) h.evictions

/-! ## Operations on both -/

theorem get (h : cache.Shelved rows shelf) (id : String) (digest : Digest) :
    (cache.get id digest).1 = (shelf.get id digest).1 ∧
      ∃ rows', (cache.get id digest).2.Shelved rows' (shelf.get id digest).2 := by
  have hfind := h.find?_eq id
  have hmiss : { cache with clock := cache.clock + 1, misses := cache.misses + 1 }.Shelved rows
      { shelf with misses := shelf.misses + 1 } :=
    { h with
      clock := fun row hrow => Nat.le_succ_of_le (h.clock row hrow)
      misses := congrArg (· + 1) h.misses }
  cases hpeek : cache.peek? id with
  | none =>
      rw [hpeek] at hfind
      simp only [Cache.get, Shelf.get, hpeek, hfind, Option.map_none, Option.filter_none, true_and]
      exact ⟨rows, hmiss⟩
  | some entry =>
      rw [hpeek] at hfind
      by_cases hdigest : entry.digest = digest
      · subst hdigest
        have hrow := h.peek?_eq_some_iff.mp hpeek
        have hmoved := (h.without hrow).concat id { entry with lastUsed := cache.clock + 1 }
          (by simp) (h.length_without hrow) rfl
        rw [h.ascending.insert_erase] at hmoved
        have hitem : (CacheRow.item (id, entry)).digest = entry.digest := rfl
        simp only [Cache.get, Shelf.get, hpeek, hfind, Option.map_some, Option.filter_some,
          hitem, decide_true, if_true]
        exact ⟨rfl, _, { hmoved with hits := congrArg (· + 1) hmoved.hits }⟩
      · have hitem : (CacheRow.item (id, entry)).digest ≠ digest := hdigest
        simp only [Cache.get, Shelf.get, hpeek, hfind, Option.map_some, Option.filter_some,
          hdigest, hitem, decide_false, Bool.false_eq_true, if_false, true_and]
        exact ⟨rows, hmiss⟩

theorem set (h : cache.Shelved rows shelf) (id : String) (digest : Digest) (content : α) :
    ∃ rows', (cache.set id digest content).Shelved rows' (shelf.set id digest content) := by
  have hfind := h.find?_eq id
  cases hpeek : cache.peek? id with
  | some entry =>
      rw [hpeek, Option.map_some] at hfind
      have hrow := h.peek?_eq_some_iff.mp hpeek
      have hset := (h.without hrow).concat id ⟨digest, content, cache.clock + 1⟩ (by simp)
        (h.length_without hrow) rfl
      simp only [Cache.set, Cache.makeRoom, Shelf.set, hpeek, hfind, Option.isSome_some, if_true]
      exact ⟨_, hset⟩
  | none =>
      rw [hpeek, Option.map_none] at hfind
      have hsize : cache.size = rows.length := h.entries.length_eq.symm
      have hlength : shelf.items.length = rows.length := by simp [h.items]
      have hnew : ∀ row ∈ rows, row.1 ≠ id := fun row hrow => h.name_ne_of_peek? hpeek hrow
      by_cases hfull : cache.capacity ≤ rows.length
      · cases rows with
        | nil => exact absurd hfull (Nat.not_le.mpr h.positive)
        | cons first rest =>
            have hset := h.drop_front.concat id ⟨digest, content, cache.clock + 1⟩
              (fun row hrow => hnew row (List.mem_cons_of_mem first hrow)) h.within rfl
            have hroom : ¬shelf.items.length < shelf.room := by
              rw [hlength, h.room]
              exact Nat.not_lt.mpr hfull
            simp only [Cache.set, Cache.makeRoom, Cache.evict, Shelf.set, hpeek, hfind, hsize,
              h.recency, hfull, hroom, Option.isSome_none, Bool.false_eq_true, if_true, if_false,
              List.map_cons, CacheRow.use]
            exact ⟨_, hset⟩
      · have hset := h.concat id ⟨digest, content, cache.clock + 1⟩ hnew
          (Nat.not_le.mp hfull) rfl
        have hroom : shelf.items.length < shelf.room := by
          rw [hlength, h.room]
          exact Nat.not_le.mp hfull
        simp only [Cache.set, Cache.makeRoom, Shelf.set, hpeek, hfind, hsize, hfull, hroom,
          Option.isSome_none, Bool.false_eq_true, if_true, if_false]
        exact ⟨_, hset⟩

theorem remove (h : cache.Shelved rows shelf) (id : String) :
    ∃ rows', (cache.remove id).2.Shelved rows' (shelf.remove id) := by
  cases hpeek : cache.peek? id with
  | some entry =>
      have hrow := h.peek?_eq_some_iff.mp hpeek
      simp only [Cache.remove, Shelf.remove, hpeek]
      exact ⟨_, h.without hrow⟩
  | none =>
      have hothers : shelf.others id = shelf.items := by
        rw [h.others_eq, h.items, List.filter_eq_self.mpr]
        intro row hrow
        simpa using h.name_ne_of_peek? hpeek hrow
      simp only [Cache.remove, Shelf.remove, hpeek, hothers]
      exact ⟨rows, h⟩

theorem clear (h : cache.Shelved rows shelf) : cache.clear.Shelved [] shelf.clear :=
  { h with
    order := ⟨List.nodup_nil, List.Pairwise.nil⟩
    ascending := Table.ascending_nil
    entries := List.Perm.nil
    recency := rfl
    clock := by simp
    items := rfl
    within := Nat.zero_le _ }

theorem perform (h : cache.Shelved rows shelf) (operation : CacheOperation α) :
    (cache.perform operation).1 = (shelf.perform operation).1 ∧
      ∃ rows', (cache.perform operation).2.Shelved rows' (shelf.perform operation).2 := by
  cases operation with
  | set id digest content => exact ⟨rfl, h.set id digest content⟩
  | get id digest =>
      obtain ⟨hanswer, hnext⟩ := h.get id digest
      exact ⟨congrArg CacheAnswer.content hanswer, hnext⟩
  | peek id =>
      constructor
      · simp [Cache.perform, Shelf.perform, h.find?_eq, CacheRow.item, Function.comp_def]
      · exact ⟨rows, h⟩
  | contains id =>
      constructor
      · simp [Cache.perform, Shelf.perform, h.find?_eq, Cache.contains, Table.contains, Cache.peek?]
      · exact ⟨rows, h⟩
  | remove id =>
      constructor
      · have hfirst : (cache.remove id).1 = cache.peek? id := by
          unfold Cache.remove
          split <;> simp_all
        simp [Cache.perform, Shelf.perform, hfirst, h.find?_eq, CacheRow.item, Function.comp_def]
      · exact h.remove id
  | clear => exact ⟨rfl, [], h.clear⟩

theorem performAll (h : cache.Shelved rows shelf) (operations : List (CacheOperation α)) :
    ∃ rows', (cache.performAll operations).Shelved rows' (shelf.performAll operations) := by
  induction operations generalizing cache rows shelf with
  | nil => exact ⟨rows, h⟩
  | cons operation rest ih =>
      obtain ⟨_, _, hnext⟩ := h.perform operation
      exact ih hnext

theorem trace_eq (h : cache.Shelved rows shelf) (operations : List (CacheOperation α)) :
    cache.trace operations = shelf.trace operations := by
  induction operations generalizing cache rows shelf with
  | nil => rfl
  | cons operation rest ih =>
      obtain ⟨hanswer, _, hnext⟩ := h.perform operation
      simp only [Cache.trace, Shelf.trace]
      rw [hanswer, hnext.view_eq, ih hnext]

end Cache.Shelved

/-! ## Runs -/

/-- The entries of a cache and its queue describe each other one to one: the queue lists the time
of last use of each entry once, in ascending order, and none of them is yet to come. -/
structure Cache.Consistent (cache : Cache α) : Prop where
  described : ∀ time id, (time, id) ∈ cache.recency ↔
    ∃ entry, cache.peek? id = some entry ∧ entry.lastUsed = time
  size : cache.recency.length = cache.size
  names : cache.keys.Nodup
  ascending : cache.recency.Pairwise fun a b => a.1 < b.1
  clock : ∀ use ∈ cache.recency, use.1 ≤ cache.clock

theorem Cache.Shelved.consistent {cache : Cache α} {rows : List (CacheRow α)} {shelf : Shelf α}
    (h : cache.Shelved rows shelf) : cache.Consistent where
  described := by
    intro time id
    rw [h.recency, List.mem_map]
    constructor
    · rintro ⟨⟨name, entry⟩, hrow, huse⟩
      obtain ⟨htime, hname⟩ := Prod.mk.inj huse
      dsimp only at htime hname
      subst htime hname
      exact ⟨entry, h.peek?_eq_some_iff.mpr hrow, rfl⟩
    · rintro ⟨entry, hpeek, rfl⟩
      exact ⟨(id, entry), h.peek?_eq_some_iff.mp hpeek, rfl⟩
  size := by rw [h.recency, List.length_map, Cache.size, h.entries.length_eq]
  names := by
    rw [Cache.keys, h.recency, List.map_map]
    exact h.order.names
  ascending := by
    rw [h.recency, List.pairwise_map]
    exact h.order.times
  clock := by
    intro use huse
    rw [h.recency] at huse
    rcases List.mem_map.mp huse with ⟨row, hrow, rfl⟩
    exact h.clock row hrow

/-- Whatever is done with an empty cache, it answers as a shelf with as much room does, and
looks the same; the shelf is never overfull, and the cache stays consistent. -/
theorem Cache.trace_eq_shelf (capacity : Nat) (operations : List (CacheOperation α)) :
    (Cache.empty capacity).trace operations = (Shelf.empty capacity).trace operations ∧
      ((Shelf.empty capacity).performAll operations).items.length ≤ max capacity 1 ∧
      ((Cache.empty capacity).performAll operations).Consistent := by
  have hempty := Cache.Shelved.empty (α := α) capacity
  obtain ⟨rows, hlast⟩ := hempty.performAll operations
  have hroom : ((Shelf.empty capacity : Shelf α).performAll operations).room = max capacity 1 :=
    Shelf.room_performAll _ operations
  have hlength : rows.length ≤ max capacity 1 := by
    rw [← hroom, hlast.room]
    exact hlast.within
  refine ⟨hempty.trace_eq operations, ?_, hlast.consistent⟩
  rwa [hlast.items, List.length_map]

end SceneLang
