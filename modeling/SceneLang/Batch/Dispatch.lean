import SceneLang.Batch.Pool
import SceneLang.Duration
import SceneLang.Number.Binary64
import SceneLang.Options

/-!
# Handing out files and collecting results

The results of a call are kept in slots in the order of its files, whatever the order in
which they arrive.  While requests are open, workers and the one who collects make moves in
any order; a run makes them in one fixed order.
-/

namespace SceneLang

/-! ## Progress -/

/-- How far a batch has come when one more file is finished. -/
structure Progress where
  total : Nat
  /-- Finished files, failed ones included. -/
  completed : Nat
  failed : Nat
  file : String
deriving DecidableEq, Repr

namespace Progress

/-- Completed files in percent; a batch without files is complete. -/
def percentage (p : Progress) : Binary64 :=
  if p.total = 0 then .ofNat 100
  else ((Binary64.ofNat p.completed).mul (.ofNat 100)).div (.ofNat p.total)

def isDone (p : Progress) : Bool :=
  p.total ≤ p.completed

end Progress

/-- The results of one call so far. -/
structure Tally where
  slots : List (Option TaskResult)
  completed : Nat
  failed : Nat
  /-- What has been reported, oldest first. -/
  progress : List Progress

namespace Tally

def start (total : Nat) : Tally := ⟨List.replicate total none, 0, 0, []⟩

/-- Put a result into the slot of its file and report it. -/
def record (tally : Tally) (index : Nat) (path : String) (result : TaskResult) : Tally :=
  let completed := tally.completed + 1
  let failed := if result.success then tally.failed else tally.failed + 1
  { slots := tally.slots.set index (some result)
    completed := completed
    failed := failed
    progress := tally.progress ++ [⟨tally.slots.length, completed, failed, path⟩] }

def results (tally : Tally) : List TaskResult :=
  tally.slots.filterMap id

end Tally

/-- A request that is not answered yet. -/
structure Pending where
  task : Nat
  index : Nat
  path : String
  worker : Option Nat

structure Dispatch where
  pool : Pool
  pending : List Pending
  tally : Tally

/-- A move of a worker, or of the one who collects. -/
inductive Move where
  | take (worker : Nat)
  | answer (worker : Nat)
  | check (worker : Nat)
  /-- Read the oldest event. -/
  | receive
  /-- Give up a request that has been running for too long. -/
  | expire (task : Nat)
  | abandon

namespace Dispatch

def pending? (d : Dispatch) (task : Nat) : Option Pending :=
  d.pending.find? (·.task = task)

def settle (d : Dispatch) (request : Pending) (result : TaskResult) : Dispatch :=
  { d with
    pending := d.pending.filter (·.task ≠ request.task)
    tally := d.tally.record request.index request.path result }

/-- Take note of an event.  An answer to a request that is closed is passed over. -/
def observe (d : Dispatch) : Event → Dispatch
  | .started task worker =>
      let note (p : Pending) := if p.task = task then { p with worker := some worker } else p
      { d with pending := d.pending.map note }
  | .finished task _ result =>
      match d.pending? task with
      | some found => d.settle found result
      | none => d

/-- Read the oldest event, if there is one. -/
def receive? (d : Dispatch) : Option Dispatch :=
  match d.pool.events with
  | [] => none
  | event :: rest => some ({ d with pool := { d.pool with events := rest } }.observe event)

/-- Give up a request that a worker has taken, and replace the worker. -/
def expire? (d : Dispatch) (limit : Option Nat) (task : Nat) : Option Dispatch :=
  match limit, d.pending? task with
  | some limit, some request =>
      request.worker.map fun worker =>
        let duration := (Duration.ofMilliseconds limit).text
        let result := TaskResult.failed request.path .taskTimeout s!"no result after {duration}"
        { d.settle request result with pool := d.pool.replace worker }
  | _, _ => none

/-- Give up all open requests, in the order of their slots. -/
def abandon (d : Dispatch) : Dispatch :=
  (d.pending.mergeSort fun a b => a.index ≤ b.index).foldl (fun d p =>
    d.settle p (.failed p.path .workerFailure "every worker has stopped")) d

def step? (limit : Option Nat) (d : Dispatch) : Move → Option Dispatch
  | .take worker => (d.pool.take? worker).map fun pool => { d with pool := pool }
  | .answer worker => (d.pool.answer? worker).map fun pool => { d with pool := pool }
  | .check worker => (d.pool.check? worker).map fun pool => { d with pool := pool }
  | .receive => d.receive?
  | .expire task => d.expire? limit task
  | .abandon => if d.pool.isDead then some d.abandon else none

/-! ## One order of moves -/

/-- A request whose time is up.  Only a limit of no time at all is sure to be exceeded. -/
def overdue? (limit : Option Nat) (d : Dispatch) : Option Nat :=
  if limit = some 0 then (d.pending.find? (·.worker.isSome)).map Pending.task else none

def workerMove? (d : Dispatch) (worker : Worker) : Option Move :=
  match worker.phase with
  | .running _ => some (.answer worker.id)
  | .answered => some (.check worker.id)
  | .waiting => if d.pool.queue.isEmpty then none else some (.take worker.id)
  | .stopped => none

/-- The next move: read events as they come, and let the first worker that can go on. -/
def nextMove? (limit : Option Nat) (d : Dispatch) : Option Move :=
  if d.pending.isEmpty then none
  else
    match d.overdue? limit with
    | some task => some (.expire task)
    | none =>
        if !d.pool.events.isEmpty then some .receive
        else if d.pool.isDead then some .abandon
        else d.pool.workers.findSome? d.workerMove?

/-- How many more moves can be made at most. -/
def work (d : Dispatch) : Nat :=
  let ofWorker (worker : Worker) : Nat :=
    match worker.phase with
    | .running _ => 3
    | .answered => 1
    | _ => 0
  let ofWorkers := d.pool.workers.foldr (fun worker rest => ofWorker worker + rest) 0
  5 * d.pool.queue.length + ofWorkers + d.pool.events.length + d.pending.length

def runFor (limit : Option Nat) : Nat → Dispatch → Dispatch
  | 0, d => d
  | fuel + 1, d =>
      match (d.nextMove? limit).bind (d.step? limit) with
      | none => d
      | some d => runFor limit fuel d

def run (limit : Option Nat) (d : Dispatch) : Dispatch :=
  runFor limit d.work d

/-- Hand out requests, each with the slot of its file. -/
def submitAll (d : Dispatch) (requests : List (Nat × Request)) : Dispatch :=
  requests.foldl (fun d (index, request) =>
    { d with
      pool := d.pool.submit request
      pending := d.pending ++ [⟨request.task, index, request.file.path, none⟩] }) d

end Dispatch

end SceneLang
