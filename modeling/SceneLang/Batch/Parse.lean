import SceneLang.Batch.Dispatch
import SceneLang.Batch.Symbols

/-!
# Parsing a batch of files

Files are handed out in the order of their sizes, large ones first.  What comes of them is
put together in the order in which they were given, so that it does not depend on who
parsed them, or when.
-/

namespace SceneLang

/-- What has come of a batch. -/
structure BatchResult where
  /-- Results by path; of two files of a path the later one counts. -/
  results : Table TaskResult
  successCount : Nat
  failCount : Nat
  symbols : SymbolTable
  graph : DependencyGraph
  warnings : List Diagnostic

namespace BatchResult

/-- Put together the results of files in the order in which they were given. -/
def ofResults (results : List TaskResult) : BatchResult :=
  let (symbols, graph) := link results
  { results := .ofList (results.map fun result => (result.path, result))
    successCount := results.countP (·.success)
    failCount := results.countP (!·.success)
    symbols := symbols
    graph := graph
    warnings := unresolvedImports results symbols }

def allSucceeded (result : BatchResult) : Bool :=
  result.failCount = 0

/-- The results of files that failed, in order of their paths. -/
def failures (result : BatchResult) : List TaskResult :=
  (result.results.map (·.2)).filter (!·.success)

end BatchResult

inductive BatchError where
  | shutDown
deriving DecidableEq, Repr

def BatchError.message : BatchError → String
  | .shutDown => "parallel parser has been shut down"

/-- What is kept from one batch to the next. -/
structure BatchParser where
  options : BatchOptions
  pool : Option Pool
  nextTask : Nat
  closed : Bool

namespace BatchParser

def new (options : BatchOptions) : BatchParser := ⟨options, none, 0, false⟩

def shutDown (parser : BatchParser) : BatchParser :=
  { parser with pool := none, closed := true }

/-- The requests of some files, large files first, each with the index of its file. -/
def requests (parser : BatchParser) (files : List SourceFile) : List (Nat × Request) :=
  let ordered := files.zipIdx.mergeSort fun a b => b.1.size ≤ a.1.size
  ordered.zipIdx.map fun ((file, index), position) =>
    (index, ⟨parser.nextTask + position, parser.options.parser, file⟩)

def sequentially (requests : List (Nat × Request)) (tally : Tally) : Tally :=
  requests.foldl (fun tally (index, request) =>
    let result := request.file.parse request.options
    tally.record index result.path result) tally

def concurrently (options : BatchOptions) (pool : Pool) (requests : List (Nat × Request))
    (tally : Tally) : Pool × Tally :=
  if requests.isEmpty then (pool, tally)
  else
    let size := options.effectiveBatchSize
    let d : Dispatch := ⟨pool, [], tally⟩
    let d := (d.submitAll (requests.take size)).run options.timeout
    concurrently options d.pool (requests.drop size) d.tally
termination_by requests.length
decreasing_by
  have hpos : 0 < requests.length := by
    cases requests <;> simp_all
  have hsize : 1 ≤ options.effectiveBatchSize := Nat.le_max_right _ _
  simp only [List.length_drop]
  omega

/-- Parse a batch.  Gives what has come of it, and what was reported meanwhile. -/
def parse (parser : BatchParser) (files : List SourceFile) :
    Except BatchError (BatchResult × List Progress) × BatchParser :=
  if parser.closed then (.error .shutDown, parser)
  else
    let requests := parser.requests files
    let tally := Tally.start files.length
    let (pool, tally) :=
      if parser.options.workers = 0 then (parser.pool, sequentially requests tally)
      else
        let pool := parser.pool.getD (.start parser.options.workers)
        let (pool, tally) := concurrently parser.options pool requests tally
        (some pool, tally)
    let progress := if parser.options.progress then tally.progress else []
    (.ok (.ofResults tally.results, progress),
      { parser with pool := pool, nextTask := parser.nextTask + files.length })

end BatchParser

end SceneLang
