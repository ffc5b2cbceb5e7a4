import SceneLang.Diagnostic.Log

/-!
# Options of a parse
-/

namespace SceneLang

/-- How a text is parsed. -/
structure ParseOptions where
  traits : Bool
  imports : Bool
  /-- Unknown words are errors, and unknown directives are dropped. -/
  strict : Bool
  limits : Limits
deriving DecidableEq, Repr

namespace ParseOptions

def default : ParseOptions := ⟨true, true, false, .default⟩

instance : Inhabited ParseOptions := ⟨default⟩

end ParseOptions

/-! ## Options of a batch -/

structure BatchOptions where
  /-- The number of workers; without any, files are parsed one after another. -/
  workers : Nat
  batchSize : Nat
  progress : Bool
  /-- Parse one file after another if workers cannot be started. -/
  sequentialFallback : Bool
  /-- How long a file may take, in milliseconds. -/
  timeout : Option Nat
  parser : ParseOptions
deriving DecidableEq, Repr

namespace BatchOptions

def default (workers : Nat) : BatchOptions :=
  ⟨workers, 50, true, true, none, .default⟩

/-- A batch has room for at least one file. -/
def effectiveBatchSize (options : BatchOptions) : Nat :=
  max options.batchSize 1

end BatchOptions

end SceneLang
