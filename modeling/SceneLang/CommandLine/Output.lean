/-!
# Output

A command writes lines to two channels and ends with success or with a message.  A line may
tell how long the work took, which is not known while the line is made; it leaves a place
for it.
-/

namespace SceneLang.CommandLine

/-- Where a line is written. -/
inductive Channel where
  | results
  | messages
deriving DecidableEq, Repr

structure Line where
  channel : Channel
  text : String
  /-- What follows behind the time that the work took, if the line tells it. -/
  afterTime : Option String
deriving DecidableEq, Repr

namespace Line

/-- The text of a line, given the time that the work took. -/
def render (time : String) (line : Line) : String :=
  match line.afterTime with
  | none => line.text
  | some rest => line.text ++ time ++ rest

/-- A text in one of the colours of a terminal. -/
def coloured (colour : Nat) (text : String) : String :=
  s!"\x1b[{colour}m{text}\x1b[0m"

def plain (text : String) : Line := ⟨.results, text, none⟩

def success (text : String) : Line := plain (coloured 32 text)

def info (text : String) : Line := plain (coloured 34 "info:" ++ " " ++ text)

def timed (before after : String) : Line := { info before with afterTime := some after }

def message (text : String) : Line := ⟨.messages, text, none⟩

def warning (text : String) : Line := message (coloured 33 "warning:" ++ " " ++ text)

def error (text : String) : Line := message (coloured 31 "error:" ++ " " ++ text)

end Line

/-- What comes of a command. -/
structure Report where
  lines : List Line
  failure : Option String
deriving DecidableEq, Repr

def Report.failed (message : String) : Report := ⟨[], some message⟩

/-- What comes of a whole run. -/
structure Outcome where
  lines : List Line
  exitCode : Nat
deriving DecidableEq, Repr

/-- A failure is the last message, unless messages are not wanted. -/
def Report.outcome (report : Report) (quiet : Bool) : Outcome :=
  match report.failure with
  | none => ⟨report.lines, 0⟩
  | some message => ⟨report.lines ++ if quiet then [] else [.error message], 1⟩

end SceneLang.CommandLine
