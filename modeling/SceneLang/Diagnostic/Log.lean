import SceneLang.Diagnostic

/-!
# Logs of bounded length

A log keeps the first errors and the first warnings up to a limit each, and counts what it
drops.  Notes count as warnings.
-/

namespace SceneLang

/-- How many errors and how many warnings are kept. -/
structure Limits where
  maxErrors : Nat
  maxWarnings : Nat
deriving DecidableEq, Repr

namespace Limits

def default : Limits := ⟨100, 50⟩

instance : Inhabited Limits := ⟨default⟩

end Limits

structure Log where
  limits : Limits
  errors : List Diagnostic
  warnings : List Diagnostic
  droppedErrors : Nat
  droppedWarnings : Nat
deriving Repr

namespace Log

def empty (limits : Limits) : Log := ⟨limits, [], [], 0, 0⟩

def keeps (log : Log) (d : Diagnostic) : Bool :=
  if d.isError then log.errors.length < log.limits.maxErrors
  else log.warnings.length < log.limits.maxWarnings

def push (log : Log) (d : Diagnostic) : Log :=
  if d.isError then
    if log.errors.length < log.limits.maxErrors then { log with errors := log.errors ++ [d] }
    else { log with droppedErrors := log.droppedErrors + 1 }
  else
    if log.warnings.length < log.limits.maxWarnings then
      { log with warnings := log.warnings ++ [d] }
    else { log with droppedWarnings := log.droppedWarnings + 1 }

def errorCount (log : Log) : Nat :=
  log.errors.length + log.droppedErrors

def warningCount (log : Log) : Nat :=
  log.warnings.length + log.droppedWarnings

def hasErrors (log : Log) : Bool :=
  0 < log.errorCount

theorem hasErrors_push (log : Log) (d : Diagnostic) :
    (log.push d).hasErrors = (log.hasErrors || d.isError) := by
  unfold push hasErrors errorCount
  cases d.isError with
  | true =>
      rw [if_pos rfl, Bool.or_true]
      split
      · exact decide_eq_true (by simp only [List.length_append, List.length_singleton]; omega)
      · exact decide_eq_true (by simp only; omega)
  | false =>
      rw [if_neg Bool.false_ne_true, Bool.or_false]
      split <;> rfl

def dropped (log : Log) : Nat :=
  log.droppedErrors + log.droppedWarnings

def isLimited (log : Log) : Bool :=
  0 < log.dropped

end Log

end SceneLang
