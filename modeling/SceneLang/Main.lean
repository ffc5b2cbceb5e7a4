import SceneLang.CommandLine.Run
import SceneLang.Duration

/-!
# The program

Reads the files that a run asks for, carries out the run and writes what it reports.
-/

namespace SceneLang.CommandLine

/-- The number of workers unless the settings or the arguments tell. -/
def defaultWorkers : Nat := 4

def ReadFailure.ofError : IO.Error → ReadFailure
  | .permissionDenied _ _ _ => .denied
  | .inappropriateType _ 21 _ => .isDirectory
  | .inappropriateType _ _ _ => .notDirectory
  | .invalidArgument _ _ _ => .nameTooLong
  | .userError _ => .notText
  | _ => .missing

def readSource (path : String) : IO (Except ReadFailure (List Char)) := do
  try
    return .ok (← IO.FS.readFile path).toList
  catch error =>
    return .error (.ofError error)

/-- The workspace of the current directory, with some files that may be read. -/
def Workspace.ofPaths (directory : String) (paths : List String) : IO Workspace := do
  let files ← paths.mapM fun path => return (path, ← readSource path)
  return {
    directory := directory
    workers := defaultWorkers
    read := fun path => ((files.find? (·.1 = path)).map (·.2)).getD (.error .missing) }

def writeLine (time : String) (line : Line) : IO Unit :=
  match line.channel with
  | .results => IO.println (line.render time)
  | .messages => IO.eprintln (line.render time)

end SceneLang.CommandLine

open SceneLang SceneLang.CommandLine in
def main (arguments : List String) : IO UInt32 := do
  let directory := (← IO.currentDir).toString
  let paths :=
    match Invocation.ofArguments arguments with
    | .ok invocation => invocation.paths directory
    | .error _ => []
  let workspace ← Workspace.ofPaths directory paths
  let start ← IO.monoNanosNow
  let outcome ← IO.lazyPure fun _ => run workspace arguments
  let time := (Duration.mk ((← IO.monoNanosNow) - start)).text
  outcome.lines.forM (writeLine time)
  return UInt32.ofNat outcome.exitCode
