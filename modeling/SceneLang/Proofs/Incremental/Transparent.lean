import SceneLang.Proofs.Cache.Entries
import SceneLang.Incremental

/-!
# A session answers as if it had no past

What a cache holds under a digest is what parsing a text of that digest gives.  This holds of
an empty cache, and every step of a session keeps it.  As long as no two texts share a digest,
a chunk found in the cache is therefore the chunk that would be parsed, whatever has been
parsed, dropped or forgotten before.
-/

namespace SceneLang

/-! ## One text -/

/-- The chunks of a text, each parsed by itself and moved to its place. -/
def Fragment.ofSource (options : ParseOptions) (source : List Char) : List Fragment :=
  (Chunk.detect source).map fun chunk => (Fragment.parse options chunk.content).place chunk

def Digest.Apart (texts : List (List Char)) : Prop :=
  ∀ text ∈ texts, ∀ other ∈ texts, Digest.ofText text = Digest.ofText other → text = other

instance (texts : List (List Char)) : Decidable (Digest.Apart texts) :=
  inferInstanceAs (Decidable (∀ text ∈ texts, ∀ other ∈ texts,
    Digest.ofText text = Digest.ofText other → text = other))

/-- The fragment is what parsing one of the texts gives, and the digest is that of the text. -/
def Fragment.Genuine (options : ParseOptions) (texts : List (List Char)) (digest : Digest)
    (fragment : Fragment) : Prop :=
  ∃ text ∈ texts, digest = Digest.ofText text ∧ fragment = Fragment.parse options text

/-- What a parse says of a text, apart from how it was found out. -/
def IncrementalResult.answer (result : IncrementalResult) : Node × List Diagnostic × Bool :=
  (result.root, result.diagnostics, result.success)

/-- The answer that some fragments make up. -/
def answerOf (fragments : List Fragment) : Node × List Diagnostic × Bool :=
  let diagnostics := fragments.flatMap Fragment.diagnostics
  (Fragment.assemble (fragments.map Fragment.root), diagnostics,
    !diagnostics.any Diagnostic.isError)

namespace Incremental

variable {options : ParseOptions} {texts : List (List Char)} {cache : Cache Fragment}

/-- Whether a chunk is looked up or parsed again, it comes out as its text parses. -/
theorem fragmentOf_eq (hapart : Digest.Apart texts)
    (hcache : cache.All (Fragment.Genuine options texts)) (again : Bool)
    {chunk : Chunk × Digest} (htext : chunk.1.content ∈ texts)
    (hdigest : chunk.2 = Digest.ofText chunk.1.content) :
    (fragmentOf options again chunk cache).1.1 = Fragment.parse options chunk.1.content ∧
      (fragmentOf options again chunk cache).2.All (Fragment.Genuine options texts) := by
  have hparsed : Fragment.Genuine options texts chunk.2
      (Fragment.parse options chunk.1.content) :=
    ⟨chunk.1.content, htext, hdigest, rfl⟩
  unfold fragmentOf
  cases again with
  | true => exact ⟨rfl, hcache.set chunk.1.id hparsed⟩
  | false =>
      obtain ⟨hfound, hrest⟩ := hcache.get chunk.1.id chunk.2
      simp only [if_neg Bool.false_ne_true]
      cases hget : (cache.get chunk.1.id chunk.2).1 with
      | none =>
          exact ⟨rfl, hrest.set chunk.1.id hparsed⟩
      | some fragment =>
          obtain ⟨text, hmem, hsame, hfragment⟩ := hfound fragment hget
          have htexts : text = chunk.1.content :=
            hapart text hmem chunk.1.content htext (hsame.symm.trans hdigest)
          exact ⟨by rw [hfragment, htexts], hrest⟩

theorem fragmentsOf_eq (hapart : Digest.Apart texts) (again : Chunk × Digest → Bool)
    {chunks : List (Chunk × Digest)}
    (hchunks : ∀ chunk ∈ chunks,
      chunk.1.content ∈ texts ∧ chunk.2 = Digest.ofText chunk.1.content)
    (hcache : cache.All (Fragment.Genuine options texts)) :
    (fragmentsOf options again chunks cache).1.map (·.1) =
        chunks.map (fun chunk => (Fragment.parse options chunk.1.content).place chunk.1) ∧
      (fragmentsOf options again chunks cache).2.All (Fragment.Genuine options texts) := by
  induction chunks generalizing cache with
  | nil => exact ⟨rfl, hcache⟩
  | cons chunk rest ih =>
      obtain ⟨htext, hdigest⟩ := hchunks chunk List.mem_cons_self
      obtain ⟨hfragment, hnext⟩ := fragmentOf_eq hapart hcache (again chunk) htext hdigest
      obtain ⟨hfragments, hlast⟩ :=
        ih (fun other hmem => hchunks other (List.mem_cons_of_mem _ hmem)) hnext
      refine ⟨?_, hlast⟩
      simp only [fragmentsOf, List.map_cons, hfragments, hfragment]

theorem fragmentsOf_length (again : Chunk × Digest → Bool) (chunks : List (Chunk × Digest)) :
    (fragmentsOf options again chunks cache).1.length = chunks.length := by
  induction chunks generalizing cache with
  | nil => rfl
  | cons chunk rest ih => simp only [fragmentsOf, List.length_cons, ih]

theorem mem_chunksOf {source : List Char} {chunk : Chunk × Digest}
    (hmem : chunk ∈ chunksOf source) :
    chunk.1.content ∈ Chunk.contents source ∧ chunk.2 = Digest.ofText chunk.1.content := by
  obtain ⟨found, hfound, rfl⟩ := List.mem_map.mp hmem
  exact ⟨List.mem_map_of_mem hfound, rfl⟩

/-- The answer to a text is that of its chunks parsed one by one, and depends neither on the
last parse nor on the cache. -/
theorem parse_answer (state : Incremental) (source : List Char) (hapart : Digest.Apart texts)
    (htexts : ∀ text ∈ Chunk.contents source, text ∈ texts)
    (hcache : cache.All (Fragment.Genuine state.options texts)) :
    (state.parse source cache).1.answer = answerOf (Fragment.ofSource state.options source) ∧
      (state.parse source cache).2.2.All (Fragment.Genuine state.options texts) := by
  let again (chunk : Chunk × Digest) : Bool :=
    state.isChanged chunk || (state.changedNames (chunksOf source)).any chunk.1.refersTo
  have hchunks : ∀ chunk ∈ chunksOf source,
      chunk.1.content ∈ texts ∧ chunk.2 = Digest.ofText chunk.1.content :=
    fun chunk hmem => ⟨htexts _ (mem_chunksOf hmem).1, (mem_chunksOf hmem).2⟩
  obtain ⟨hfragments, hrest⟩ := fragmentsOf_eq hapart again hchunks hcache
  have hsource : (fragmentsOf state.options again (chunksOf source) cache).1.map (·.1) =
      Fragment.ofSource state.options source := by
    rw [hfragments, chunksOf, List.map_map]
    rfl
  refine ⟨?_, hrest⟩
  have hroots : (fragmentsOf state.options again (chunksOf source) cache).1.map (·.1.root) =
      (Fragment.ofSource state.options source).map Fragment.root := by
    rw [← hsource, List.map_map]
    rfl
  have hdiagnostics :
      (fragmentsOf state.options again (chunksOf source) cache).1.flatMap (·.1.diagnostics) =
        (Fragment.ofSource state.options source).flatMap Fragment.diagnostics := by
    rw [← hsource, List.flatMap_map]
  unfold IncrementalResult.answer answerOf IncrementalResult.success Incremental.parse
  dsimp only
  rw [hroots, hdiagnostics]

theorem parse_counts (state : Incremental) (source : List Char) (cache : Cache Fragment) :
    (state.parse source cache).1.cached + (state.parse source cache).1.fresh =
        (Chunk.detect source).length ∧
      (state.parse source cache).2.1.cacheHits =
        state.cacheHits + (state.parse source cache).1.cached ∧
      (state.parse source cache).2.1.parseCount =
        state.parseCount + (state.parse source cache).1.fresh := by
  refine ⟨?_, rfl, rfl⟩
  have hcount (fragments : List (Fragment × Bool)) :
      fragments.countP (·.2) + fragments.countP (!·.2) = fragments.length := by
    rw [List.length_eq_countP_add_countP (·.2)]
    simp
  unfold Incremental.parse
  dsimp only
  rw [hcount, fragmentsOf_length, chunksOf, List.length_map]

end Incremental

/-! ## Sessions -/

namespace Session

variable {options : ParseOptions} {texts : List (List Char)} {session : Session}

/-- What stays true in a session in which the texts may be parsed. -/
structure Sound (options : ParseOptions) (texts : List (List Char)) (session : Session) : Prop where
  options_eq : session.parser.options = options
  cache : session.cache.All (Fragment.Genuine options texts)

theorem sound_new (capacity : Nat) : Sound options texts (new options capacity) :=
  ⟨rfl, Cache.all_empty capacity⟩

theorem Sound.parse (h : Sound options texts session) {source : List Char}
    (hapart : Digest.Apart texts) (htexts : ∀ text ∈ Chunk.contents source, text ∈ texts) :
    (session.parser.parse source session.cache).1.answer =
        answerOf (Fragment.ofSource options source) ∧
      Sound options texts (session.step (.parse source)).2 := by
  obtain ⟨hoptions, hcache⟩ := h
  subst hoptions
  obtain ⟨hanswer, hrest⟩ := Incremental.parse_answer session.parser source hapart htexts hcache
  exact ⟨hanswer, rfl, hrest⟩

/-- By induction on the steps: each of them keeps the session sound, and each parse answers as
the chunks of its text do. -/
theorem Sound.run (h : Sound options texts session) (hapart : Digest.Apart texts)
    {steps : List Step}
    (htexts : ∀ text ∈ (sources steps).flatMap Chunk.contents, text ∈ texts) :
    (session.run steps).1.map IncrementalResult.answer =
      (sources steps).map fun source => answerOf (Fragment.ofSource options source) := by
  induction steps generalizing session with
  | nil => rfl
  | cons step rest ih =>
      cases step with
      | parse source =>
          rw [sources, List.flatMap_cons] at htexts
          obtain ⟨hanswer, hnext⟩ := h.parse hapart fun text hmem =>
            htexts text (List.mem_append_left _ hmem)
          have hrest := ih hnext fun text hmem => htexts text (List.mem_append_right _ hmem)
          rw [sources, List.map_cons, ← hrest, ← hanswer]
          rfl
      | reset => exact ih ⟨h.options_eq, h.cache⟩ htexts
      | clear => exact ih ⟨h.options_eq, Cache.All.clear⟩ htexts
      | remove id => exact ih ⟨h.options_eq, h.cache.remove id⟩ htexts

theorem run_counts (session : Session) (steps : List Step) :
    (session.run steps).1.map (fun result => result.cached + result.fresh) =
        (sources steps).map (fun source => (Chunk.detect source).length) ∧
      (session.run steps).2.parser.cacheHits =
        session.parser.cacheHits + total IncrementalResult.cached (session.run steps).1 ∧
      (session.run steps).2.parser.parseCount =
        session.parser.parseCount + total IncrementalResult.fresh (session.run steps).1 := by
  induction steps generalizing session with
  | nil => exact ⟨rfl, rfl, rfl⟩
  | cons step rest ih =>
      obtain ⟨hchunks, hhits, hparses⟩ := ih (session.step step).2
      cases step with
      | parse source =>
          obtain ⟨htotal, hhit, hparse⟩ :=
            Incremental.parse_counts session.parser source session.cache
          refine ⟨?_, ?_, ?_⟩
          · rw [sources, List.map_cons, ← hchunks, ← htotal]
            rfl
          · apply hhits.trans
            change (session.parser.parse source session.cache).2.1.cacheHits + _ = _
            rw [hhit, Nat.add_assoc]
            rfl
          · apply hparses.trans
            change (session.parser.parse source session.cache).2.1.parseCount + _ = _
            rw [hparse, Nat.add_assoc]
            rfl
      | reset => exact ⟨hchunks, hhits, hparses⟩
      | clear => exact ⟨hchunks, hhits, hparses⟩
      | remove id => exact ⟨hchunks, hhits, hparses⟩

/-- As long as no two chunks of its texts share a digest, a session with a cache of any size
answers each text as a new parser with an empty cache does; each chunk of a text counts as
taken from the cache or as parsed, and the parser keeps the sums of these counts. -/
theorem run_transparent (options : ParseOptions) (capacity room : Nat) (steps : List Step)
    (hapart : Digest.Apart ((sources steps).flatMap Chunk.contents)) :
    ((new options capacity).run steps).1.map IncrementalResult.answer =
        (sources steps).map (fun source =>
          ((Incremental.new options).parse source (.empty room)).1.answer) ∧
      ((new options capacity).run steps).1.map (fun result => result.cached + result.fresh) =
        (sources steps).map (fun source => (Chunk.detect source).length) ∧
      ((new options capacity).run steps).2.parser.cacheHits =
        total IncrementalResult.cached ((new options capacity).run steps).1 ∧
      ((new options capacity).run steps).2.parser.parseCount =
        total IncrementalResult.fresh ((new options capacity).run steps).1 := by
  obtain ⟨hchunks, hhits, hparses⟩ := run_counts (new options capacity) steps
  refine ⟨?_, hchunks, hhits.trans (Nat.zero_add _), hparses.trans (Nat.zero_add _)⟩
  rw [(sound_new capacity).run hapart fun _ hmem => hmem]
  apply List.map_congr_left
  intro source hsource
  have htexts : ∀ text ∈ Chunk.contents source, text ∈ (sources steps).flatMap Chunk.contents :=
    fun text hmem => List.mem_flatMap.mpr ⟨source, hsource, hmem⟩
  exact (Incremental.parse_answer (.new options) source hapart htexts (Cache.all_empty room)).1.symm

/-- Two elements are parsed, one of them is dropped, and the other one is found again. -/
def removalSteps : List Step :=
  [.parse "orb a {}\norb b {}\n".toList, .remove "orb:a", .parse "orb b {}\n".toList]

theorem removalSteps_transparent :
    Digest.Apart ((sources removalSteps).flatMap Chunk.contents) ∧
      ((new .default 2).run removalSteps).1.map IncrementalResult.answer =
        (sources removalSteps).map (fun source =>
          ((Incremental.new .default).parse source (.empty 1)).1.answer) ∧
      ((new .default 2).run removalSteps).1.map IncrementalResult.cached = [0, 1] := by
  have hapart : Digest.Apart ((sources removalSteps).flatMap Chunk.contents) := by
    decide +kernel
  exact ⟨hapart, (run_transparent .default 2 1 removalSteps hapart).1, by decide +kernel⟩

end Session

end SceneLang
