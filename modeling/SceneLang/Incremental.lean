import SceneLang.Cache
import SceneLang.Chunk
import SceneLang.Document

/-!
# Parsing what has changed

A text is parsed chunk by chunk.  A chunk that is the same as the last time, and that
mentions no element that has changed, is taken from a cache.  Trees and diagnostics of a
chunk are kept relative to its own text, and moved to their place in the whole one.
-/

namespace SceneLang

/-- What a chunk was parsed to: its tree, and its errors and then its warnings. -/
structure Fragment where
  root : Node
  diagnostics : List Diagnostic

namespace Fragment

def parse (options : ParseOptions) (content : List Char) : Fragment :=
  let document := Document.parse options content
  ⟨document.root, document.diagnostics⟩

def place (fragment : Fragment) (chunk : Chunk) : Fragment :=
  let lines := chunk.startLine - 1
  ⟨fragment.root.down lines, fragment.diagnostics.map (·.relocate lines chunk.startOffset)⟩

/-- Add what a root holds to a fragment of the tree: the contents of a fragment, and any
other node as a child. -/
def addRoot (whole node : Node) : Node :=
  if node.isFragment then
    { whole with
      children := whole.children ++ node.children
      directives := whole.directives ++ node.directives
      traits := node.traits.foldl (fun traits entry => traits.insert entry.1 entry.2) whole.traits }
  else { whole with children := whole.children ++ [node] }

def assemble (roots : List Node) : Node :=
  match roots with
  | [] => .fragment [] default
  | [root] => root
  | first :: rest =>
      let loc := first.loc.merge (rest.getLastD first).loc
      roots.foldl addRoot (.fragment [] loc)

end Fragment

/-- What the last parse saw of a chunk. -/
structure ChunkRecord where
  digest : Digest
  name : Option String

/-- What is kept from one parse to the next. -/
structure Incremental where
  options : ParseOptions
  previous : Table ChunkRecord
  /-- Chunks taken from the cache so far. -/
  cacheHits : Nat
  /-- Chunks parsed so far. -/
  parseCount : Nat

/-- What one parse has found. -/
structure IncrementalResult where
  root : Node
  cached : Nat
  fresh : Nat
  /-- The chunks that are new or different, in order, and then those that are gone. -/
  changed : List String
  diagnostics : List Diagnostic

namespace IncrementalResult

def success (result : IncrementalResult) : Bool :=
  !result.diagnostics.any Diagnostic.isError

end IncrementalResult

namespace Incremental

def new (options : ParseOptions) : Incremental := ⟨options, [], 0, 0⟩

/-- Forget the last parse, so that all chunks count as new. -/
def reset (state : Incremental) : Incremental :=
  { state with previous := [] }

/-- Is the chunk new, or different from the last time? -/
def isChanged (state : Incremental) (chunk : Chunk × Digest) : Bool :=
  (state.previous.find? chunk.1.id).map ChunkRecord.digest ≠ some chunk.2

def removed (state : Incremental) (chunks : List (Chunk × Digest)) : Table ChunkRecord :=
  state.previous.filter fun entry => !(chunks.map (·.1.id)).contains entry.1

def changedIds (state : Incremental) (chunks : List (Chunk × Digest)) : List String :=
  (chunks.filter state.isChanged).map (·.1.id) ++ (state.removed chunks).keys

def changedNames (state : Incremental) (chunks : List (Chunk × Digest)) : List String :=
  (chunks.filter state.isChanged).filterMap (·.1.name) ++
    (state.removed chunks).filterMap (·.2.name)

/-- The fragment of a chunk and whether it comes from the cache.  A chunk that must be
parsed again is not looked up. -/
def fragmentOf (options : ParseOptions) (again : Bool) (chunk : Chunk × Digest)
    (cache : Cache Fragment) : (Fragment × Bool) × Cache Fragment :=
  let (found, cache) := if again then (none, cache) else cache.get chunk.1.id chunk.2
  match found with
  | some fragment => ((fragment, true), cache)
  | none =>
      let fragment := Fragment.parse options chunk.1.content
      ((fragment, false), cache.set chunk.1.id chunk.2 fragment)

/-- The fragments of chunks in their places, each with whether it comes from the cache. -/
def fragmentsOf (options : ParseOptions) (again : Chunk × Digest → Bool) :
    List (Chunk × Digest) → Cache Fragment → List (Fragment × Bool) × Cache Fragment
  | [], cache => ([], cache)
  | chunk :: rest, cache =>
      let ((fragment, cached), cache) := fragmentOf options (again chunk) chunk cache
      let (fragments, cache) := fragmentsOf options again rest cache
      ((fragment.place chunk.1, cached) :: fragments, cache)

def chunksOf (source : List Char) : List (Chunk × Digest) :=
  (Chunk.detect source).map fun chunk => (chunk, Digest.ofText chunk.content)

/-- Parse a text with what is left of the last parse. -/
def parse (state : Incremental) (source : List Char) (cache : Cache Fragment) :
    IncrementalResult × Incremental × Cache Fragment :=
  let chunks := chunksOf source
  let names := state.changedNames chunks
  let again (chunk : Chunk × Digest) : Bool :=
    state.isChanged chunk || names.any chunk.1.refersTo
  let (fragments, cache) := fragmentsOf state.options again chunks cache
  let cached := fragments.countP (·.2)
  let fresh := fragments.countP (!·.2)
  let records := chunks.map fun (chunk, digest) =>
    (chunk.id, (⟨digest, chunk.name⟩ : ChunkRecord))
  ({ root := Fragment.assemble (fragments.map (·.1.root))
     cached := cached
     fresh := fresh
     changed := state.changedIds chunks
     diagnostics := fragments.flatMap (·.1.diagnostics) },
    { state with
      previous := .ofList records
      cacheHits := state.cacheHits + cached
      parseCount := state.parseCount + fresh },
    cache)

end Incremental

/-! ## Sessions

A session parses one text after another with one parser and one cache.  Between two texts the
parser may be told to forget the last one, and the cache may lose one or all of its entries.
-/

structure Session where
  parser : Incremental
  cache : Cache Fragment

namespace Session

/-- What can be done in a session. -/
inductive Step where
  | parse (source : List Char)
  | reset
  | clear
  | remove (id : String)

def new (options : ParseOptions) (capacity : Nat) : Session :=
  ⟨.new options, .empty capacity⟩

def step (session : Session) : Step → List IncrementalResult × Session
  | .parse source =>
      let (result, parser, cache) := session.parser.parse source session.cache
      ([result], ⟨parser, cache⟩)
  | .reset => ([], { session with parser := session.parser.reset })
  | .clear => ([], { session with cache := session.cache.clear })
  | .remove id => ([], { session with cache := (session.cache.remove id).2 })

/-- Do one thing after another, and list the results of the parses. -/
def run (session : Session) : List Step → List IncrementalResult × Session
  | [] => ([], session)
  | step :: rest =>
      let (results, next) := session.step step
      let (more, last) := next.run rest
      (results ++ more, last)

def sources : List Step → List (List Char)
  | [] => []
  | .parse source :: rest => source :: sources rest
  | _ :: rest => sources rest

def total (count : IncrementalResult → Nat) : List IncrementalResult → Nat
  | [] => 0
  | result :: rest => count result + total count rest

end Session

def Chunk.contents (source : List Char) : List (List Char) :=
  (Chunk.detect source).map Chunk.content

end SceneLang
