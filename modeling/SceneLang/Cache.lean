import SceneLang.Digest
import SceneLang.Number.Binary64
import SceneLang.Table

/-!
# A cache of bounded size

A cache keeps, under an identifier, what was worked out from contents of a digest.  When it
is full the entry that was used longest ago makes room.  A clock ticks with every look-up
and every storing, so that no two entries were used at the same time; the order of use is
kept beside the entries as a queue.
-/

namespace SceneLang

structure CacheEntry (α : Type) where
  digest : Digest
  content : α
  lastUsed : Nat

structure Cache (α : Type) where
  entries : Table (CacheEntry α)
  /-- The times of last use with their identifiers, oldest first. -/
  recency : List (Nat × String)
  clock : Nat
  capacity : Nat
  hits : Nat
  misses : Nat
  evictions : Nat

/-- How many entries a cache holds unless told otherwise. -/
def defaultCapacity : Nat := 500

namespace Cache

variable {α : Type}

/-- An empty cache, which holds at least one entry. -/
def empty (capacity : Nat) : Cache α where
  entries := []
  recency := []
  clock := 0
  capacity := max capacity 1
  hits := 0
  misses := 0
  evictions := 0

/-- Look at an entry without using it. -/
def peek? (cache : Cache α) (id : String) : Option (CacheEntry α) :=
  cache.entries.find? id

def contains (cache : Cache α) (id : String) : Bool :=
  cache.entries.contains id

def keys (cache : Cache α) : List String :=
  cache.recency.map (·.2)

def size (cache : Cache α) : Nat :=
  cache.entries.length

def forget (recency : List (Nat × String)) (time : Nat) : List (Nat × String) :=
  recency.filter (·.1 ≠ time)

/-- Use the contents under an identifier, if they have the digest. -/
def get (cache : Cache α) (id : String) (digest : Digest) : Option α × Cache α :=
  let time := cache.clock + 1
  match (cache.peek? id).filter (·.digest = digest) with
  | some entry =>
      (some entry.content,
        { cache with
          clock := time
          entries := cache.entries.insert id { entry with lastUsed := time }
          recency := forget cache.recency entry.lastUsed ++ [(time, id)]
          hits := cache.hits + 1 })
  | none => (none, { cache with clock := time, misses := cache.misses + 1 })

def evict (cache : Cache α) : Cache α :=
  match cache.recency with
  | [] => cache
  | (_, id) :: rest =>
      { cache with
        entries := cache.entries.erase id
        recency := rest
        evictions := cache.evictions + 1 }

/-- Make room for an entry under an identifier: drop the one it replaces, or the oldest one
of a full cache. -/
def makeRoom (cache : Cache α) (id : String) : Cache α :=
  match cache.peek? id with
  | some entry =>
      { cache with
        entries := cache.entries.erase id
        recency := forget cache.recency entry.lastUsed }
  | none => if cache.capacity ≤ cache.size then cache.evict else cache

def set (cache : Cache α) (id : String) (digest : Digest) (content : α) : Cache α :=
  let time := cache.clock + 1
  let room := cache.makeRoom id
  { room with
    clock := time
    entries := room.entries.insert id ⟨digest, content, time⟩
    recency := room.recency ++ [(time, id)] }

def remove (cache : Cache α) (id : String) : Option (CacheEntry α) × Cache α :=
  match cache.peek? id with
  | some entry =>
      (some entry,
        { cache with
          entries := cache.entries.erase id
          recency := forget cache.recency entry.lastUsed })
  | none => (none, cache)

/-- Drop all entries; the counts stay. -/
def clear (cache : Cache α) : Cache α :=
  { cache with entries := [], recency := [] }

/-- The part of the look-ups that were hits, zero if there were none. -/
def hitRate (cache : Cache α) : Binary64 :=
  let total := cache.hits + cache.misses
  if total = 0 then .zero else (Binary64.ofNat cache.hits).div (.ofNat total)

end Cache

end SceneLang
