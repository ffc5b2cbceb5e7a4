import SceneLang.Proofs.Cache.Shelf
import SceneLang.Proofs.Incremental.Transparent

/-!
# A text that has not changed is not parsed again

A parse uses the entry of each chunk once, whether it finds it or stores it.  If no two chunks
have one id and there is room for all of them, the entries used last are then those of the chunks,
and none of them has made room for another one, whatever was in the cache before.  The next parse
of the same text finds them all: the parser remembers the digests of the same chunks, so none of
them counts as changed and none mentions anything that has.
-/

namespace SceneLang

variable {α : Type}

/-! ## The entries used last -/

/-- The contents used last are these, in this order. -/
def Cache.Recent (cache : Cache α) (items : List (ShelfItem α)) : Prop :=
  ∃ rows shelf, cache.Shelved rows shelf ∧ items <:+ shelf.items

/-- What stands under an id, without the time of its last use. -/
def Cache.held? (cache : Cache α) (id : String) : Option (Digest × α) :=
  (cache.peek? id).map fun entry => (entry.digest, entry.content)

namespace Shelf

variable {shelf : Shelf α} {items : List (ShelfItem α)} {id : String} {digest : Digest}
  {content : α}

theorem suffix_others (hsuffix : items <:+ shelf.items) (hnew : ∀ item ∈ items, item.id ≠ id) :
    items <:+ shelf.others id := by
  obtain ⟨front, hfront⟩ := hsuffix
  have hkept : items.filter (fun item => decide (item.id ≠ id)) = items := by
    rw [List.filter_eq_self]
    intro item hitem
    exact decide_eq_true (hnew item hitem)
  refine ⟨front.filter fun item => decide (item.id ≠ id), ?_⟩
  rw [others, ← hfront, List.filter_append, hkept]

theorem suffix_concat {others : List (ShelfItem α)} (hsuffix : items <:+ others)
    (item : ShelfItem α) : items ++ [item] <:+ others ++ [item] := by
  obtain ⟨front, rfl⟩ := hsuffix
  exact ⟨front, by rw [List.append_assoc]⟩

theorem suffix_get (hsuffix : items <:+ shelf.items) (hnew : ∀ item ∈ items, item.id ≠ id)
    (hfound : (shelf.get id digest).1 = some content) :
    items ++ [⟨id, digest, content⟩] <:+ (shelf.get id digest).2.items := by
  unfold get at hfound ⊢
  split at hfound
  next item hitem =>
    obtain ⟨hfind, hdigest⟩ := Option.filter_eq_some_iff.mp hitem
    have hid : item.id = id := by simpa using List.find?_some hfind
    have hsame : item = ⟨id, digest, content⟩ := by
      cases item
      cases hfound
      simp_all
    subst hsame
    exact suffix_concat (suffix_others hsuffix hnew) _
  next => contradiction

theorem suffix_get_none (hsuffix : items <:+ shelf.items)
    (hfound : (shelf.get id digest).1 = none) : items <:+ (shelf.get id digest).2.items := by
  unfold get at hfound ⊢
  split at hfound
  · contradiction
  · exact hsuffix

/-- As long as there is room for one more, no item used last is dropped for a new one: a full
shelf has another one in front of them. -/
theorem suffix_set (hsuffix : items <:+ shelf.items) (hnew : ∀ item ∈ items, item.id ≠ id)
    (hroom : items.length < shelf.room) :
    items ++ [⟨id, digest, content⟩] <:+ (shelf.set id digest content).items := by
  unfold set
  split
  · exact suffix_concat (suffix_others hsuffix hnew) _
  split
  · exact suffix_concat hsuffix _
  next hfull =>
    obtain ⟨front, hfront⟩ := hsuffix
    cases front with
    | nil =>
        have hlength : shelf.items.length = items.length := by rw [← hfront]; rfl
        omega
    | cons first rest =>
        have htail : items <:+ shelf.items.tail := ⟨rest, by rw [← hfront]; rfl⟩
        exact suffix_concat htail _

end Shelf

namespace Cache

variable {cache : Cache α} {items : List (ShelfItem α)} {id : String} {digest : Digest}
  {content : α}

@[simp] theorem capacity_get (cache : Cache α) (id : String) (digest : Digest) :
    (cache.get id digest).2.capacity = cache.capacity := by
  unfold get
  split <;> rfl

@[simp] theorem capacity_set (cache : Cache α) (id : String) (digest : Digest) (content : α) :
    (cache.set id digest content).capacity = cache.capacity := by
  simp only [set, makeRoom, evict]
  repeat' split
  all_goals rfl

theorem Recent.get (h : cache.Recent items) (hnew : ∀ item ∈ items, item.id ≠ id)
    (hfound : (cache.get id digest).1 = some content) :
    (cache.get id digest).2.Recent (items ++ [⟨id, digest, content⟩]) := by
  obtain ⟨rows, shelf, hshelf, hsuffix⟩ := h
  obtain ⟨hanswer, rows', hnext⟩ := hshelf.get id digest
  exact ⟨rows', _, hnext, Shelf.suffix_get hsuffix hnew (hanswer.symm.trans hfound)⟩

theorem Recent.get_none (h : cache.Recent items) (hfound : (cache.get id digest).1 = none) :
    (cache.get id digest).2.Recent items := by
  obtain ⟨rows, shelf, hshelf, hsuffix⟩ := h
  obtain ⟨hanswer, rows', hnext⟩ := hshelf.get id digest
  exact ⟨rows', _, hnext, Shelf.suffix_get_none hsuffix (hanswer.symm.trans hfound)⟩

theorem Recent.set (h : cache.Recent items) (hnew : ∀ item ∈ items, item.id ≠ id)
    (hroom : items.length < cache.capacity) (digest : Digest) (content : α) :
    (cache.set id digest content).Recent (items ++ [⟨id, digest, content⟩]) := by
  obtain ⟨rows, shelf, hshelf, hsuffix⟩ := h
  obtain ⟨rows', hnext⟩ := hshelf.set id digest content
  rw [← hshelf.room] at hroom
  exact ⟨rows', _, hnext, Shelf.suffix_set hsuffix hnew hroom⟩

theorem Recent.held?_eq (h : cache.Recent items) {item : ShelfItem α} (hitem : item ∈ items) :
    cache.held? item.id = some (item.digest, item.content) := by
  obtain ⟨rows, shelf, hshelf, hsuffix⟩ := h
  have hmem := hsuffix.subset hitem
  rw [hshelf.items] at hmem
  obtain ⟨row, hrow, rfl⟩ := List.mem_map.mp hmem
  have hpeek : cache.peek? row.1 = some row.2 := hshelf.peek?_eq_some_iff.mpr hrow
  change (cache.peek? row.1).map _ = _
  rw [hpeek]
  rfl

theorem get_of_held? (h : cache.held? id = some (digest, content)) :
    (cache.get id digest).1 = some content := by
  obtain ⟨entry, hpeek, hsame⟩ := Option.map_eq_some_iff.mp h
  obtain ⟨rfl, rfl⟩ := Prod.mk.inj hsame
  simp only [get, hpeek, Option.filter_some, decide_true, if_true]

/-- A look-up changes only when something was used. -/
theorem held?_get (cache : Cache α) (id other : String) (digest : Digest) :
    (cache.get id digest).2.held? other = cache.held? other := by
  unfold get
  split
  next entry hentry =>
    obtain ⟨hpeek, -⟩ := Option.filter_eq_some_iff.mp hentry
    simp only [held?, peek?, Table.find?_insert] at hpeek ⊢
    split
    next heq =>
      rw [heq, hpeek]
      rfl
    next => rfl
  next => rfl

end Cache

/-! ## The chunks of one text -/

namespace Incremental

variable {cache : Cache Fragment} {items : List (ShelfItem Fragment)}
  {chunk : Chunk × Digest} {chunks : List (Chunk × Digest)}

/-- The item under which a fragment of a chunk is kept. -/
def itemOf (chunk : Chunk × Digest) (fragment : Fragment) : ShelfItem Fragment :=
  ⟨chunk.1.id, chunk.2, fragment⟩

@[simp] theorem itemOf_id (chunk : Chunk × Digest) (fragment : Fragment) :
    (itemOf chunk fragment).id = chunk.1.id := rfl

/-- Found or parsed, the fragment of a chunk is the one used last. -/
theorem recent_fragmentOf (options : ParseOptions) (hcache : cache.Recent items)
    (hnew : ∀ item ∈ items, item.id ≠ chunk.1.id) (hroom : items.length < cache.capacity)
    (again : Bool) :
    (fragmentOf options again chunk cache).2.Recent
        (items ++ [itemOf chunk (fragmentOf options again chunk cache).1.1]) ∧
      (fragmentOf options again chunk cache).2.capacity = cache.capacity := by
  unfold fragmentOf
  cases again with
  | true => exact ⟨hcache.set hnew hroom _ _, Cache.capacity_set ..⟩
  | false =>
      simp only [if_neg Bool.false_ne_true]
      cases hget : (cache.get chunk.1.id chunk.2).1 with
      | some fragment => exact ⟨hcache.get hnew hget, Cache.capacity_get ..⟩
      | none =>
          have hleft : items.length < (cache.get chunk.1.id chunk.2).2.capacity := by
            rwa [Cache.capacity_get]
          exact ⟨(hcache.get_none hget).set hnew hleft _ _, by simp⟩

/-- After a pass over chunks of different ids that there is room for, their fragments are those
used last. -/
theorem recent_fragmentsOf (options : ParseOptions) (again : Chunk × Digest → Bool)
    (hcache : cache.Recent items)
    (hids : (chunks.map (·.1.id)).Nodup)
    (hnew : ∀ item ∈ items, ∀ chunk ∈ chunks, item.id ≠ chunk.1.id)
    (hroom : items.length + chunks.length ≤ cache.capacity) :
    ∃ fragments : List Fragment, fragments.length = chunks.length ∧
      (fragmentsOf options again chunks cache).1.map (·.1) =
        chunks.zipWith (fun chunk fragment => fragment.place chunk.1) fragments ∧
      (fragmentsOf options again chunks cache).2.Recent
        (items ++ chunks.zipWith itemOf fragments) := by
  induction chunks generalizing cache items with
  | nil => exact ⟨[], rfl, rfl, by simpa [fragmentsOf] using hcache⟩
  | cons chunk rest ih =>
      obtain ⟨hid, hrest⟩ := List.nodup_cons.mp hids
      rw [List.length_cons] at hroom
      obtain ⟨hnext, hcapacity⟩ := recent_fragmentOf options hcache
        (fun item hitem => hnew item hitem chunk List.mem_cons_self) (by omega) (again chunk)
      have hapart : ∀ item ∈
          items ++ [itemOf chunk (fragmentOf options (again chunk) chunk cache).1.1],
          ∀ other ∈ rest, item.id ≠ other.1.id := by
        intro item hitem other hother
        rcases List.mem_append.mp hitem with hitem | hitem
        · exact hnew item hitem other (List.mem_cons_of_mem _ hother)
        · rw [List.mem_singleton.mp hitem, itemOf_id]
          intro heq
          exact hid (List.mem_map.mpr ⟨other, hother, heq.symm⟩)
      have hleft : (items ++
            [itemOf chunk (fragmentOf options (again chunk) chunk cache).1.1]).length +
          rest.length ≤ (fragmentOf options (again chunk) chunk cache).2.capacity := by
        rw [List.length_append, List.length_singleton, hcapacity]
        omega
      obtain ⟨fragments, hlength, hplaced, hlast⟩ := ih hnext hrest hapart hleft
      refine ⟨(fragmentOf options (again chunk) chunk cache).1.1 :: fragments, ?_, ?_, ?_⟩
      · simp [hlength]
      · simp only [fragmentsOf, List.map_cons, List.zipWith_cons_cons, hplaced]
      · simpa [fragmentsOf] using hlast

/-- Chunks that stand in the cache and are looked up all come from there. -/
theorem fragmentsOf_held (options : ParseOptions) {again : Chunk × Digest → Bool}
    {fragments : List Fragment} (hlength : fragments.length = chunks.length)
    (hagain : ∀ chunk ∈ chunks, again chunk = false)
    (hheld : ∀ item ∈ chunks.zipWith itemOf fragments,
      cache.held? item.id = some (item.digest, item.content)) :
    (fragmentsOf options again chunks cache).1.map (·.1) =
        chunks.zipWith (fun chunk fragment => fragment.place chunk.1) fragments ∧
      ∀ found ∈ (fragmentsOf options again chunks cache).1, found.2 = true := by
  induction chunks generalizing cache fragments with
  | nil => exact ⟨rfl, fun found hmem => nomatch hmem⟩
  | cons chunk rest ih =>
      cases fragments with
      | nil => contradiction
      | cons fragment more =>
          have hfirst : (cache.get chunk.1.id chunk.2).1 = some fragment :=
            Cache.get_of_held? (hheld (itemOf chunk fragment) List.mem_cons_self)
          have hone : fragmentOf options (again chunk) chunk cache =
              ((fragment, true), (cache.get chunk.1.id chunk.2).2) := by
            rw [hagain chunk List.mem_cons_self]
            simp [fragmentOf, hfirst]
          have hothers : ∀ item ∈ rest.zipWith itemOf more,
              (cache.get chunk.1.id chunk.2).2.held? item.id =
                some (item.digest, item.content) := by
            intro item hitem
            rw [Cache.held?_get]
            exact hheld item (List.mem_cons_of_mem _ hitem)
          obtain ⟨hplaced, hcached⟩ := ih (Nat.succ.inj hlength)
            (fun other hmem => hagain other (List.mem_cons_of_mem _ hmem)) hothers
          simp only [fragmentsOf, hone]
          constructor
          · rw [List.map_cons, List.zipWith_cons_cons, hplaced]
          · intro found hfound
            rcases List.mem_cons.mp hfound with rfl | hfound
            · rfl
            · exact hcached found hfound

/-! ## The same text again -/

/-- The parser knows these chunks and no others. -/
structure Knows (state : Incremental) (chunks : List (Chunk × Digest)) : Prop where
  same : ∀ chunk ∈ chunks, state.isChanged chunk = false
  none_removed : state.removed chunks = []

theorem Knows.changedIds_eq {state : Incremental} (h : state.Knows chunks) :
    state.changedIds chunks = [] := by
  have hnone : chunks.filter state.isChanged = [] :=
    List.filter_eq_nil_iff.mpr fun chunk hmem => by simp [h.same chunk hmem]
  rw [changedIds, hnone, h.none_removed]
  rfl

theorem Knows.changedNames_eq {state : Incremental} (h : state.Knows chunks) :
    state.changedNames chunks = [] := by
  have hnone : chunks.filter state.isChanged = [] :=
    List.filter_eq_nil_iff.mpr fun chunk hmem => by simp [h.same chunk hmem]
  rw [changedNames, hnone, h.none_removed]
  rfl

/-- Behind a parse the parser knows the chunks of the text. -/
theorem knows_parse (state : Incremental) (source : List Char) (cache : Cache Fragment)
    (hids : ((chunksOf source).map (·.1.id)).Nodup) :
    (state.parse source cache).2.1.Knows (chunksOf source) := by
  let record (chunk : Chunk × Digest) : String × ChunkRecord :=
    (chunk.1.id, ⟨chunk.2, chunk.1.name⟩)
  have hprevious : (state.parse source cache).2.1.previous =
      .ofList ((chunksOf source).map record) := rfl
  have hperm : (Table.ofList ((chunksOf source).map record)).Perm
      ((chunksOf source).map record) := by
    apply Table.ofList_perm
    rwa [List.map_map]
  have hascending : Table.Ascending (.ofList ((chunksOf source).map record)) :=
    Table.ascending_ofList _
  constructor
  · intro chunk hchunk
    have hfind : (state.parse source cache).2.1.previous.find? chunk.1.id =
        some ⟨chunk.2, chunk.1.name⟩ := by
      rw [hprevious, hascending.find?_eq_some_iff, hperm.mem_iff]
      exact List.mem_map.mpr ⟨chunk, hchunk, rfl⟩
    simp [isChanged, hfind]
  · rw [removed, hprevious, List.filter_eq_nil_iff]
    intro entry hentry
    obtain ⟨chunk, hchunk, rfl⟩ := List.mem_map.mp (hperm.mem_iff.mp hentry)
    have hmem : (record chunk).1 ∈ (chunksOf source).map (·.1.id) :=
      List.mem_map.mpr ⟨chunk, hchunk, rfl⟩
    simpa using hmem

/-- What two parses in a row of one text have to do with each other. -/
structure Repeats (source : List Char) (first second : IncrementalResult) : Prop where
  fresh : second.fresh = 0
  cached : second.cached = (Chunk.detect source).length
  changed : second.changed = []
  root : second.root = first.root
  diagnostics : second.diagnostics = first.diagnostics

/-- Whatever the parser has seen before and whatever is in the cache, if only the cache is in
order: a text parsed twice in a row is not parsed the second time. -/
theorem repeats_parse (state : Incremental) (source : List Char) (hcache : cache.Recent [])
    (hids : ((Chunk.detect source).map Chunk.id).Nodup)
    (hroom : (Chunk.detect source).length ≤ cache.capacity) :
    Repeats source (state.parse source cache).1
      ((state.parse source cache).2.1.parse source (state.parse source cache).2.2).1 := by
  have hdistinct : ((chunksOf source).map (·.1.id)).Nodup := by
    rw [chunksOf, List.map_map]
    exact hids
  have hcount : (chunksOf source).length = (Chunk.detect source).length := List.length_map ..
  have hknows := knows_parse state source cache hdistinct
  let again (chunk : Chunk × Digest) : Bool :=
    state.isChanged chunk || (state.changedNames (chunksOf source)).any chunk.1.refersTo
  let next := (state.parse source cache).2.1
  let stored := (state.parse source cache).2.2
  let againNext (chunk : Chunk × Digest) : Bool :=
    next.isChanged chunk || (next.changedNames (chunksOf source)).any chunk.1.refersTo
  have hnever : ∀ chunk ∈ chunksOf source, againNext chunk = false := by
    intro chunk hchunk
    simp [againNext, next, hknows.same chunk hchunk, hknows.changedNames_eq]
  obtain ⟨fragments, hlength, hplaced, hrecent⟩ :=
    recent_fragmentsOf state.options again hcache hdistinct (by simp)
      (by simpa [hcount] using hroom)
  have hheld : ∀ item ∈ (chunksOf source).zipWith itemOf fragments,
      stored.held? item.id = some (item.digest, item.content) :=
    fun item hitem => hrecent.held?_eq hitem
  obtain ⟨hsecond, hall⟩ :=
    fragmentsOf_held state.options hlength hnever hheld
  have hsame : (fragmentsOf state.options againNext (chunksOf source) stored).1.map (·.1) =
      (fragmentsOf state.options again (chunksOf source) cache).1.map (·.1) := by
    rw [hsecond, hplaced]
  constructor
  · change List.countP (fun found : Fragment × Bool => !found.2) _ = 0
    rw [List.countP_eq_zero]
    intro found hfound
    simp [hall found hfound]
  · exact (List.countP_eq_length.mpr hall).trans ((fragmentsOf_length ..).trans hcount)
  · exact hknows.changedIds_eq
  · have hroots := congrArg (List.map Fragment.root) hsame
    rw [List.map_map, List.map_map] at hroots
    exact congrArg Fragment.assemble hroots
  · have hfound := congrArg (List.flatMap Fragment.diagnostics) hsame
    rw [List.flatMap_map, List.flatMap_map] at hfound
    exact hfound

end Incremental

/-! ## Histories -/

namespace Session

/-- What can happen to a parser and its cache.  Others may use the cache too: it is not the
parser's own. -/
inductive Event where
  | step (step : Step)
  | use (operation : CacheOperation Fragment)

def happen (session : Session) : Event → Session
  | .step step => (session.step step).2
  | .use operation => { session with cache := (session.cache.perform operation).2 }

def live (session : Session) (events : List Event) : Session :=
  events.foldl happen session

/-- The cache is in order and has kept its size. -/
def Sized (capacity : Nat) (session : Session) : Prop :=
  ∃ rows shelf, session.cache.Shelved rows shelf ∧ shelf.room = max capacity 1

variable {capacity : Nat} {session : Session}

theorem sized_new (options : ParseOptions) (capacity : Nat) :
    (new options capacity).Sized capacity :=
  ⟨[], .empty capacity, Cache.Shelved.empty capacity, rfl⟩

theorem Sized.use (h : session.Sized capacity) (operation : CacheOperation Fragment)
    (parser : Incremental) :
    Sized capacity ⟨parser, (session.cache.perform operation).2⟩ := by
  obtain ⟨rows, shelf, hshelf, hroom⟩ := h
  obtain ⟨-, rows', hnext⟩ := hshelf.perform operation
  exact ⟨rows', _, hnext, (shelf.room_perform operation).trans hroom⟩

theorem Sized.fragmentOf (h : session.Sized capacity) (options : ParseOptions) (again : Bool)
    (chunk : Chunk × Digest) :
    Sized capacity ⟨session.parser,
      (Incremental.fragmentOf options again chunk session.cache).2⟩ := by
  unfold Incremental.fragmentOf
  cases again with
  | true => exact h.use (.set chunk.1.id chunk.2 _) session.parser
  | false =>
      have hget := h.use (.get chunk.1.id chunk.2) session.parser
      simp only [if_neg Bool.false_ne_true]
      split
      · exact hget
      · exact hget.use (.set chunk.1.id chunk.2 _) session.parser

theorem Sized.fragmentsOf (h : session.Sized capacity) (options : ParseOptions)
    (again : Chunk × Digest → Bool) (chunks : List (Chunk × Digest)) :
    Sized capacity ⟨session.parser,
      (Incremental.fragmentsOf options again chunks session.cache).2⟩ := by
  induction chunks generalizing session with
  | nil => exact h
  | cons chunk rest ih => exact ih (h.fragmentOf options (again chunk) chunk)

theorem Sized.happen (h : session.Sized capacity) (event : Event) :
    (session.happen event).Sized capacity := by
  cases event with
  | use operation => exact h.use operation session.parser
  | step step =>
      cases step with
      | parse source => exact h.fragmentsOf _ _ _
      | reset => exact h
      | clear => exact h.use .clear session.parser
      | remove id => exact h.use (.remove id) session.parser

theorem Sized.live (h : session.Sized capacity) (events : List Event) :
    (session.live events).Sized capacity := by
  induction events generalizing session with
  | nil => exact h
  | cons event rest ih => exact ih (h.happen event)

/-- Whatever has happened to a parser and its cache before, a text whose chunks have different
ids and fit into the cache is not parsed again if it comes a second time: all of its chunks come
from the cache, none of them counts as changed, and the answer is the same. -/
theorem reparse_free (options : ParseOptions) (capacity : Nat) (events : List Event)
    (source : List Char) (hids : ((Chunk.detect source).map Chunk.id).Nodup)
    (hroom : (Chunk.detect source).length ≤ max capacity 1) :
    ∃ first second,
      (((new options capacity).live events).run [.parse source, .parse source]).1 =
        [first, second] ∧
      second.fresh = 0 ∧ second.cached = (Chunk.detect source).length ∧ second.changed = [] ∧
      second.root = first.root ∧ second.diagnostics = first.diagnostics := by
  obtain ⟨rows, shelf, hshelf, hsize⟩ := (sized_new options capacity).live events
  rw [← hsize, hshelf.room] at hroom
  have hrepeats := ((new options capacity).live events).parser.repeats_parse source
    ⟨rows, shelf, hshelf, List.nil_suffix⟩ hids hroom
  exact ⟨_, _, rfl, hrepeats.fresh, hrepeats.cached, hrepeats.changed, hrepeats.root,
    hrepeats.diagnostics⟩

/-- A full cache of two entries: one of the text itself, but of a chunk that has changed since,
and one that somebody else has put there. -/
def crowdedEvents : List Event :=
  [.step (.parse "orb a {}\n".toList), .step .reset,
    .use (.set "other" (.ofText []) ⟨.fragment [] default, []⟩)]

theorem reparse_free_crowded :
    let source := "orb a { x: 1 }\norb b { uses a }\n".toList
    ((Chunk.detect source).map Chunk.id).Nodup ∧
      (((new .default 2).live crowdedEvents).run [.parse source, .parse source]).1.map
        IncrementalResult.fresh = [2, 0] ∧
      ∃ first second,
        (((new .default 2).live crowdedEvents).run [.parse source, .parse source]).1 =
          [first, second] ∧
        second.fresh = 0 ∧ second.cached = (Chunk.detect source).length ∧
        second.changed = [] ∧ second.root = first.root ∧
        second.diagnostics = first.diagnostics := by
  intro source
  have hids : ((Chunk.detect source).map Chunk.id).Nodup := by decide +kernel
  exact ⟨hids, by decide +kernel,
    reparse_free .default 2 crowdedEvents source hids (by decide +kernel)⟩

end Session

end SceneLang
