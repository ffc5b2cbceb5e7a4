import SceneLang.Options
import SceneLang.Cache
import SceneLang.Json.Form

/-!
# Settings

Settings are the options of all parts together.  They are stored as records of records,
and what is left out has its default.
-/

namespace SceneLang

open Json.Reader (bool count optional record)

namespace Limits

def toJson (limits : Limits) : Json :=
  .object [("max_errors", .ofNat limits.maxErrors), ("max_warnings", .ofNat limits.maxWarnings)]

/-- Stored limits; both of them have to be there. -/
def stored : Json.Reader Limits :=
  record "DiagnosticLimits" default
    [⟨"max_errors", true, fun limits => return { limits with maxErrors := ← count "usize" }⟩,
     ⟨"max_warnings", true, fun limits => return { limits with maxWarnings := ← count "usize" }⟩]

end Limits

namespace ParseOptions

def toJson (options : ParseOptions) : Json :=
  .object [("enable_vr_traits", .bool options.traits),
    ("enable_typescript_imports", .bool options.imports), ("strict", .bool options.strict),
    ("limits", options.limits.toJson)]

def stored : Json.Reader ParseOptions :=
  record "ParserOptions" default
    [⟨"enable_vr_traits", false, fun options => return { options with traits := ← bool }⟩,
     ⟨"enable_typescript_imports", false,
       fun options => return { options with imports := ← bool }⟩,
     ⟨"strict", false, fun options => return { options with strict := ← bool }⟩,
     ⟨"limits", false, fun options => return { options with limits := ← Limits.stored }⟩]

end ParseOptions

namespace BatchOptions

/-- The stored form, but for the number of workers, which depends on the machine. -/
def members (options : BatchOptions) : List (String × Json) :=
  [("batch_size", .ofNat options.batchSize), ("enable_progress", .bool options.progress),
    ("fallback_to_sequential", .bool options.sequentialFallback),
    ("task_timeout_ms", .ofOption Json.ofNat options.timeout),
    ("parser", options.parser.toJson)]

/-- Stored options; `workers` is the number of workers if they do not tell. -/
def stored (workers : Nat) : Json.Reader BatchOptions :=
  record "ParallelOptions" (default workers)
    [⟨"worker_count", false, fun options => return { options with workers := ← count "usize" }⟩,
     ⟨"batch_size", false, fun options => return { options with batchSize := ← count "usize" }⟩,
     ⟨"enable_progress", false, fun options => return { options with progress := ← bool }⟩,
     ⟨"fallback_to_sequential", false,
       fun options => return { options with sequentialFallback := ← bool }⟩,
     ⟨"task_timeout_ms", false,
       fun options => return { options with timeout := ← optional (count "u64") }⟩,
     ⟨"parser", false,
       fun options => return { options with parser := ← ParseOptions.stored }⟩]

end BatchOptions

structure Settings where
  parser : ParseOptions
  batch : BatchOptions
  cacheCapacity : Nat
deriving DecidableEq, Repr

namespace Settings

def default (workers : Nat) : Settings :=
  ⟨.default, .default workers, defaultCapacity⟩

def storedCapacity : Json.Reader Nat :=
  record "CacheConfig" defaultCapacity [⟨"capacity", false, fun _ => count "usize"⟩]

def stored (workers : Nat) : Json.Reader Settings :=
  record "HoloConfig" (default workers)
    [⟨"parser", false, fun settings => return { settings with parser := ← ParseOptions.stored }⟩,
     ⟨"parallel", false,
       fun settings => return { settings with batch := ← BatchOptions.stored workers }⟩,
     ⟨"cache", false,
       fun settings => return { settings with cacheCapacity := ← storedCapacity }⟩]

/-- Read settings; `workers` is the number of workers if they do not tell. -/
def ofText (workers : Nat) (text : List Char) : Except Json.Failure Settings :=
  (stored workers).run text

end Settings

end SceneLang
