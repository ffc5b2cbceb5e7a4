import SceneLang.Batch.Symbols

/-!
# A pool of workers

Workers take requests from one queue and report to one list of events.  A worker that is
replaced is told so by a flag, which it reads only between two requests: a request that it
has at that time is still answered.
-/

namespace SceneLang

/-- A file to be parsed under a number that no other request has. -/
structure Request where
  task : Nat
  options : ParseOptions
  file : SourceFile

/-- What a worker is doing. -/
inductive Phase where
  | waiting
  | running (request : Request)
  /-- It has answered, and has not read its flag yet. -/
  | answered
  | stopped

structure Worker where
  id : Nat
  phase : Phase

inductive Event where
  | started (task worker : Nat)
  | finished (task worker : Nat) (result : TaskResult)

structure Pool where
  queue : List Request
  /-- What workers have reported and nobody has read yet, oldest first. -/
  events : List Event
  workers : List Worker
  /-- The workers that count, replaced ones excluded. -/
  active : List Nat
  retired : List Nat
  nextId : Nat

namespace Pool

def empty : Pool := ⟨[], [], [], [], [], 0⟩

def spawn (pool : Pool) : Pool :=
  { pool with
    workers := pool.workers ++ [⟨pool.nextId, .waiting⟩]
    active := pool.active ++ [pool.nextId]
    nextId := pool.nextId + 1 }

def start : Nat → Pool
  | 0 => empty
  | count + 1 => (start count).spawn

def submit (pool : Pool) (request : Request) : Pool :=
  { pool with queue := pool.queue ++ [request] }

/-- Give up a worker, if it still counts, and start another one. -/
def replace (pool : Pool) (worker : Nat) : Pool :=
  if pool.active.contains worker then
    { pool with
      active := pool.active.erase worker
      retired := worker :: pool.retired }.spawn
  else pool.spawn

def setPhase (pool : Pool) (worker : Nat) (phase : Phase) : List Worker :=
  pool.workers.map fun w => if w.id = worker then ⟨w.id, phase⟩ else w

def phase? (pool : Pool) (worker : Nat) : Option Phase :=
  (pool.workers.find? (·.id = worker)).map Worker.phase

def take? (pool : Pool) (worker : Nat) : Option Pool :=
  match pool.phase? worker, pool.queue with
  | some .waiting, request :: rest =>
      some { pool with
        queue := rest
        workers := pool.setPhase worker (.running request)
        events := pool.events ++ [.started request.task worker] }
  | _, _ => none

def answer? (pool : Pool) (worker : Nat) : Option Pool :=
  match pool.phase? worker with
  | some (.running request) =>
      some { pool with
        workers := pool.setPhase worker .answered
        events := pool.events ++
          [.finished request.task worker (request.file.parse request.options)] }
  | _ => none

/-- A worker reads its flag, and stops or waits again. -/
def check? (pool : Pool) (worker : Nat) : Option Pool :=
  match pool.phase? worker with
  | some .answered =>
      let phase := if pool.retired.contains worker then Phase.stopped else .waiting
      some { pool with workers := pool.setPhase worker phase }
  | _ => none

def isDead (pool : Pool) : Bool :=
  pool.active.all fun worker =>
    match pool.phase? worker with
    | some .stopped => true
    | _ => false

end Pool

end SceneLang
