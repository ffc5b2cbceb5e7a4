import SceneLang.CommandLine.Arguments
import SceneLang.CommandLine.Commands
import SceneLang.CommandLine.Folder
import SceneLang.Settings

/-!
# A run from arguments to output

A run takes the arguments, finds the settings, reads the files of the command and reports.
The files it may read are given as a function, so that a run is a value like any other.
-/

namespace SceneLang.CommandLine

/-- Where a run takes place. -/
structure Workspace where
  directory : String
  /-- The number of workers unless the settings or the arguments tell. -/
  workers : Nat
  read : String → Except ReadFailure (List Char)

/-- The path of the settings that a directory may hold. -/
def defaultConfig (directory : String) : String :=
  directory ++ "/holo.json"

def Invocation.paths (directory : String) (invocation : Invocation) : List String :=
  invocation.config.getD (defaultConfig directory) ::
    match invocation.command with
    | .check file | .ast file _ | .tokens file => [file]
    | .batch files _ _ _ _ => files
    | .diff before after => [before, after]

namespace Workspace

def settingsAt (w : Workspace) (path : String) : Except String Settings :=
  match w.read path with
  | .error failure => .error s!"cannot read config '{path}': {failure.message}"
  | .ok text =>
      match Settings.ofText w.workers text with
      | .ok settings => .ok settings
      | .error failure =>
          let reason := failure.text text
          .error s!"invalid config '{path}': {reason}"

/-- The settings at a path, or those of the directory, or the defaults. -/
def settings (w : Workspace) : Option String → Except String Settings
  | some path => w.settingsAt path
  | none =>
      let path := defaultConfig w.directory
      match w.read path with
      | .error .missing | .error .isDirectory | .error .notDirectory | .error .nameTooLong =>
          .ok (.default w.workers)
      | _ => w.settingsAt path

def source (w : Workspace) (path : String) : Except String (List Char) :=
  (w.read path).mapError fun failure => s!"cannot read file '{path}': {failure.message}"

end Workspace

/-- The options of a batch: those of the settings, changed by the arguments. -/
def batchOptions (settings : Settings) (verbose : Bool) (workers batchSize : Option Nat)
    (sequential : Bool) (timeout : Option Nat) : BatchOptions :=
  { settings.batch with
    parser := settings.parser
    workers := if sequential then 0 else workers.getD settings.batch.workers
    batchSize := (batchSize.map (max 1)).getD settings.batch.batchSize
    timeout := timeout.or settings.batch.timeout
    progress := verbose }

def Command.report (w : Workspace) (settings : Settings) (verbose : Bool) :
    Command → Except String Report
  | .check file => return checkReport settings.parser verbose (← w.source file)
  | .ast file compact => return astReport settings.parser compact (← w.source file)
  | .tokens file => return tokensReport (← w.source file)
  | .batch files workers batchSize sequential timeout => do
      let sources ← files.mapM fun path => return (⟨path, ← w.source path⟩ : SourceFile)
      return batchReport (batchOptions settings verbose workers batchSize sequential timeout)
        sources
  | .diff before after => do
      let old ← w.source before
      let new ← w.source after
      return diffReport settings.parser settings.cacheCapacity old new after

def Invocation.outcome (w : Workspace) (invocation : Invocation) : Outcome :=
  let report : Except String Report := do
    invocation.command.report w (← w.settings invocation.config) invocation.verbose
  match report with
  | .ok report => report.outcome invocation.quiet
  | .error message => (Report.failed message).outcome invocation.quiet

def usage : List String :=
  ["Usage: holo [OPTIONS] <COMMAND>",
   "",
   "Commands:",
   "  check <FILE>             Parse a file and report diagnostics",
   "  ast <FILE> [--compact]   Print the syntax tree of a file as JSON",
   "  tokens <FILE>            Print the token stream of a file",
   "  batch <FILES>...         Parse many files in parallel",
   "  diff <BEFORE> <AFTER>    Re-parse an edited file and report what changed",
   "",
   "Options:",
   "  -v, --verbose            Enable verbose output",
   "  -q, --quiet              Suppress output",
   "      --config <CONFIG>    Config file (default: ./holo.json when present)",
   "  -h, --help               Print help",
   "  -V, --version            Print version",
   "",
   "Options of batch:",
   "      --workers <N>        Worker threads",
   "      --batch-size <N>     Files per batch",
   "      --sequential         Parse one file after another",
   "      --timeout-ms <N>     Fail a file that takes longer than this"]

def version : String := "holo 0.6.3"

/-- What comes of arguments that do not lead to a command. -/
def Refusal.outcome : Refusal → Outcome
  | .helpWanted => ⟨usage.map .plain, 0⟩
  | .versionWanted => ⟨[.plain version], 0⟩
  | .unusable error => ⟨.message s!"error: {error.message}" :: usage.map .message, 2⟩

def run (w : Workspace) (arguments : List String) : Outcome :=
  match Invocation.ofArguments arguments with
  | .ok invocation => invocation.outcome w
  | .error refusal => refusal.outcome

end SceneLang.CommandLine
