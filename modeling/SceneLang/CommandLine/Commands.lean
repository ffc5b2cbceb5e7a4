import SceneLang.Batch.Parse
import SceneLang.CommandLine.Output
import SceneLang.Document
import SceneLang.Incremental
import SceneLang.Json.Writer
import SceneLang.Node.Stored
import SceneLang.Node.Walk
import SceneLang.Number.Shortest
import SceneLang.Text.Words

/-!
# Commands

What each command reports about the texts that it is given.
-/

namespace SceneLang.CommandLine

def checkReport (options : ParseOptions) (verbose : Bool) (source : List Char) : Report :=
  let document := Document.parse options source
  let found := document.diagnostics.map fun d => Line.message d.text
  let nodes := document.root.count
  let features := ", ".intercalate (document.features.map Feature.name)
  let details :=
    if verbose then
      .info s!"Parsed {nodes} nodes" ::
        if document.features.isEmpty then [] else [.info s!"Features: {features}"]
    else []
  if document.success then
    let count := document.warnings.length
    let warnings := if count = 0 then [] else [Line.warning s!"{count} warning(s)"]
    ⟨found ++ details ++ warnings ++ [.success "OK - No errors found"], none⟩
  else
    let count := document.errors.length
    ⟨found ++ details ++ [.error s!"{count} error(s) found"], some "parse error"⟩

def astReport (options : ParseOptions) (compact : Bool) (source : List Char) : Report :=
  let document := Document.parse options source
  let found := document.diagnostics.map fun d => Line.message d.text
  let stored := document.root.toJson
  ⟨found ++ [.plain (if compact then stored.compact else stored.pretty)],
    if document.success then none else some "parse error"⟩

/-- A token with its position; layout has no text to show. -/
def tokenLine (token : Token) : Line :=
  let line := Text.padLeft 4 (toString token.position.line)
  let column := Text.padRight 3 (toString token.position.column)
  let kind := token.kind.name
  let text :=
    if token.kind.isLayout || token.kind = .eof then "" else " " ++ Text.listing token.text
  .plain s!"{line}:{column} {kind}{text}"

def tokensReport (source : List Char) : Report :=
  ⟨(tokenize source).map tokenLine, none⟩

def progressLine (progress : Progress) : Line :=
  let percentage := Text.padLeft 5 (progress.percentage.fixed 1)
  .message s!"[{percentage}%] {progress.completed}/{progress.total} {progress.file}"

def resultLines (path : String) (result : TaskResult) : List Line :=
  if result.success then
    let count := result.exports.length
    [.success s!"ok    {path} ({count} exports)"]
  else
    let errors := result.diagnostics.filter Diagnostic.isError
    let count := errors.length
    .error s!"{path}: {count} error(s)" ::
      errors.map fun d =>
        let position := d.position.text
        .message s!"    {position}: {d.message}"

def warningLine (d : Diagnostic) : Line :=
  let notes := "; ".intercalate d.notes
  .warning s!"{d.message} ({notes})"

/-- Parse files and say what has come of each, and of all together. -/
def batchReport (options : BatchOptions) (files : List SourceFile) : Report :=
  match (BatchParser.new options).parse files with
  | (.error error, _) => .failed error.message
  | (.ok (result, progress), _) =>
      let count := result.results.length
      let symbols := result.symbols.length
      let good := result.successCount
      let bad := result.failCount
      let lines :=
        progress.map progressLine
          ++ (result.results.flatMap fun (path, result) => resultLines path result)
          ++ result.warnings.map warningLine
          ++ [.timed s!"{count} file(s), {good} ok, {bad} failed, {symbols} symbol(s) in " ""]
      ⟨lines, if result.allSucceeded then none else some s!"{bad} file(s) failed to parse"⟩

/-- Parse a text, and then what has become of it, and say what had to be parsed again. -/
def diffReport (options : ParseOptions) (capacity : Nat) (before after : List Char)
    (path : String) : Report :=
  let (_, state, cache) := (Incremental.new options).parse before (Cache.empty capacity)
  let (result, _, cache) := state.parse after cache
  let changes :=
    if result.changed.isEmpty then [Line.info "no chunks changed"]
    else result.changed.map fun id => .plain s!"changed  {id}"
  let rate := (cache.hitRate.mul (.ofNat 100)).fixed 0
  let summary :=
    Line.timed s!"{result.cached} chunk(s) reused, {result.fresh} parsed in "
      s!" (cache hit rate {rate}%)"
  let errors := result.diagnostics.countP Diagnostic.isError
  ⟨changes ++ [summary],
    if result.success then none else some s!"{errors} error(s) in '{path}'"⟩

end SceneLang.CommandLine
