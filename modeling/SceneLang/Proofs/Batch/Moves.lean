import SceneLang.Proofs.Batch.Pools

/-!
# Requests and moves of a dispatch

Every request in the queue, every request that a worker has and every answer among the events
goes back to something that was asked for.  A request is waited for in vain only if its worker is
lost: otherwise it is held by the pool until its answer is read.
-/

namespace SceneLang

/-- The number of the request that an event is about. -/
def Event.task : Event → Nat
  | .started task _ => task
  | .finished task _ _ => task

namespace Pool

variable {pool next : Pool} {worker task : Nat} {phase old : Phase} {asked : Request → Prop}

/-! ## What was asked for -/

/-- Requests and answers go back to what was asked for. -/
structure Carries (asked : Request → Prop) (pool : Pool) : Prop where
  queue : ∀ request ∈ pool.queue, asked request
  running : ∀ w ∈ pool.workers, ∀ request, w.phase = .running request → asked request
  finished : ∀ task worker result, .finished task worker result ∈ pool.events →
    ∃ request, asked request ∧ request.task = task ∧
      result = request.file.parse request.options

namespace Carries

theorem mono {asked' : Request → Prop} (h : pool.Carries asked)
    (himp : ∀ request, asked request → asked' request) : pool.Carries asked' where
  queue := fun request hmem => himp request (h.queue request hmem)
  running := fun w hmem request hphase => himp request (h.running w hmem request hphase)
  finished := by
    intro task worker result hmem
    obtain ⟨request, hasked, htask, hresult⟩ := h.finished task worker result hmem
    exact ⟨request, himp request hasked, htask, hresult⟩

theorem setPhase (h : pool.Carries asked)
    (hphase : ∀ request, phase = .running request → asked request) :
    ∀ w ∈ pool.setPhase worker phase, ∀ request, w.phase = .running request → asked request := by
  intro w hmem request hw
  rcases mem_setPhase hmem with rfl | ⟨hmem, _⟩
  · exact hphase request hw
  · exact h.running w hmem request hw

theorem works (h : pool.Carries asked) (hworks : pool.Works next) : next.Carries asked := by
  obtain ⟨worker, htake | hanswer | hcheck⟩ := hworks
  · obtain ⟨request, rest, _, hqueue, rfl⟩ := take?_eq_some_iff.mp htake
    have hqueued : ∀ r ∈ request :: rest, asked r := hqueue ▸ h.queue
    constructor
    · exact fun r hmem => hqueued r (List.mem_cons_of_mem request hmem)
    · apply h.setPhase
      intro r hphase
      cases hphase
      exact hqueued request List.mem_cons_self
    · intro task w result hmem
      rcases List.mem_append.mp hmem with hmem | hmem
      · exact h.finished task w result hmem
      · simp at hmem
  · obtain ⟨request, hphase, rfl⟩ := answer?_eq_some_iff.mp hanswer
    constructor
    · exact h.queue
    · exact h.setPhase (by simp)
    · intro task w result hmem
      rcases List.mem_append.mp hmem with hmem | hmem
      · exact h.finished task w result hmem
      · obtain ⟨rfl, rfl, rfl⟩ := by simpa using hmem
        exact ⟨request, h.running _ (mem_of_phase? hphase) request rfl, rfl, rfl⟩
  · obtain ⟨_, rfl⟩ := check?_eq_some_iff.mp hcheck
    constructor
    · exact h.queue
    · apply h.setPhase
      intro r hphase
      split at hphase <;> contradiction
    · exact h.finished

theorem spawn (h : pool.Carries asked) : pool.spawn.Carries asked where
  queue := h.queue
  running := by
    intro w hmem request hphase
    rcases List.mem_append.mp hmem with hmem | hmem
    · exact h.running w hmem request hphase
    · rw [List.mem_singleton.mp hmem] at hphase
      contradiction
  finished := h.finished

theorem replace (h : pool.Carries asked) (worker : Nat) : (pool.replace worker).Carries asked := by
  rw [Pool.replace]
  split
  · exact spawn ⟨h.queue, h.running, h.finished⟩
  · exact h.spawn

theorem lose (h : pool.Carries asked) (worker : Nat) : (pool.lose worker).Carries asked where
  queue := h.queue
  running := h.setPhase (by simp)
  finished := h.finished

theorem submit (h : pool.Carries asked) {request : Request} (hasked : asked request) :
    (pool.submit request).Carries asked where
  queue := by
    intro r hmem
    rcases List.mem_append.mp hmem with hmem | hmem
    · exact h.queue r hmem
    · rwa [List.mem_singleton.mp hmem]
  running := h.running
  finished := h.finished

theorem tail_events (h : pool.Carries asked) :
    { pool with events := pool.events.tail }.Carries asked where
  queue := h.queue
  running := h.running
  finished := fun task worker result hmem =>
    h.finished task worker result (List.mem_of_mem_tail hmem)

end Carries

theorem carries_start (count : Nat) : (start count).Carries asked := by
  induction count with
  | zero => constructor <;> simp [start, empty]
  | succ count ih => exact ih.spawn

/-! ## Where a request is -/

def Queued (pool : Pool) (task : Nat) : Prop := ∃ request ∈ pool.queue, request.task = task

/-- The request is in the queue, or it is among the events that a worker has taken it. -/
def Announced (pool : Pool) (task : Nat) : Prop :=
  pool.Queued task ∨ ∃ worker, .started task worker ∈ pool.events

/-- The request is in the queue, a worker has it, or its answer is among the events. -/
def Holds (pool : Pool) (task : Nat) : Prop :=
  pool.Queued task ∨
    (∃ w ∈ pool.workers, ∃ request, w.phase = .running request ∧ request.task = task) ∨
    ∃ worker result, .finished task worker result ∈ pool.events

namespace Announced

theorem works (h : pool.Announced task) (hworks : pool.Works next) : next.Announced task := by
  obtain ⟨worker, htake | hanswer | hcheck⟩ := hworks
  · obtain ⟨request, rest, _, hqueue, rfl⟩ := take?_eq_some_iff.mp htake
    rcases h with ⟨r, hmem, htask⟩ | ⟨w, hmem⟩
    · rw [hqueue] at hmem
      rcases List.mem_cons.mp hmem with rfl | hmem
      · exact .inr ⟨worker, by simp [htask]⟩
      · exact .inl ⟨r, hmem, htask⟩
    · exact .inr ⟨w, List.mem_append_left _ hmem⟩
  · obtain ⟨request, _, rfl⟩ := answer?_eq_some_iff.mp hanswer
    exact h.imp id fun ⟨w, hmem⟩ => ⟨w, List.mem_append_left _ hmem⟩
  · obtain ⟨_, rfl⟩ := check?_eq_some_iff.mp hcheck
    exact h

theorem replace (h : pool.Announced task) (worker : Nat) :
    (pool.replace worker).Announced task := by
  rw [Pool.replace]
  split <;> exact h

theorem lose (h : pool.Announced task) (worker : Nat) : (pool.lose worker).Announced task :=
  h

theorem submit (h : pool.Announced task) (request : Request) :
    (pool.submit request).Announced task :=
  h.imp (fun ⟨r, hmem, htask⟩ => ⟨r, List.mem_append_left _ hmem, htask⟩) id

/-- Reading an event leaves the request announced, unless it is the one that says so. -/
theorem tail_events (h : pool.Announced task) {event : Event} {rest : List Event}
    (hevents : pool.events = event :: rest) (hother : ∀ worker, event ≠ .started task worker) :
    { pool with events := rest }.Announced task := by
  refine h.imp id fun ⟨worker, hmem⟩ => ⟨worker, ?_⟩
  rw [hevents] at hmem
  rcases List.mem_cons.mp hmem with heq | hmem
  · exact absurd heq.symm (hother worker)
  · exact hmem

end Announced

theorem announced_submit (request : Request) : (pool.submit request).Announced request.task :=
  .inl ⟨request, List.mem_append_right _ (List.mem_singleton.mpr rfl), rfl⟩

namespace Holds

/-- A worker that is not running holds nothing, so its phase does not matter. -/
theorem running_setPhase (hids : pool.ids.Nodup) (hold : pool.phase? worker = some old)
    (hidle : ∀ request, old ≠ .running request) {w : Worker} (hmem : w ∈ pool.workers)
    {request : Request} (hphase : w.phase = .running request) :
    w ∈ pool.setPhase worker phase := by
  apply mem_setPhase_of_ne hmem
  rintro rfl
  rw [phase?_of_mem hids hmem, Option.some.injEq] at hold
  exact hidle request (hold ▸ hphase)

theorem works (h : pool.Holds task) (hids : pool.ids.Nodup) (hworks : pool.Works next) :
    next.Holds task := by
  obtain ⟨worker, htake | hanswer | hcheck⟩ := hworks
  · obtain ⟨request, rest, hold, hqueue, rfl⟩ := take?_eq_some_iff.mp htake
    rcases h with ⟨r, hmem, htask⟩ | ⟨w, hmem, r, hphase, htask⟩ | ⟨w, result, hmem⟩
    · rw [hqueue] at hmem
      rcases List.mem_cons.mp hmem with rfl | hmem
      · exact .inr (.inl ⟨_, mem_setPhase_self hold, r, rfl, htask⟩)
      · exact .inl ⟨r, hmem, htask⟩
    · exact .inr (.inl
        ⟨w, running_setPhase hids hold (by simp) hmem hphase, r, hphase, htask⟩)
    · exact .inr (.inr ⟨w, result, List.mem_append_left _ hmem⟩)
  · obtain ⟨request, hold, rfl⟩ := answer?_eq_some_iff.mp hanswer
    rcases h with hqueued | ⟨w, hmem, r, hphase, htask⟩ | ⟨w, result, hmem⟩
    · exact .inl hqueued
    · by_cases hid : w.id = worker
      · have hsame : w.phase = .running request := by
          have hw := phase?_of_mem hids hmem
          rw [hid, hold] at hw
          exact (Option.some.inj hw).symm
        obtain rfl : request = r := by simpa [hsame] using hphase
        exact .inr (.inr ⟨worker, _, List.mem_append_right _ (by simp [htask]; rfl)⟩)
      · exact .inr (.inl ⟨w, mem_setPhase_of_ne hmem hid, r, hphase, htask⟩)
    · exact .inr (.inr ⟨w, result, List.mem_append_left _ hmem⟩)
  · obtain ⟨hold, rfl⟩ := check?_eq_some_iff.mp hcheck
    rcases h with hqueued | ⟨w, hmem, r, hphase, htask⟩ | hfinished
    · exact .inl hqueued
    · exact .inr (.inl
        ⟨w, running_setPhase hids hold (by simp) hmem hphase, r, hphase, htask⟩)
    · exact .inr (.inr hfinished)

theorem spawn (h : pool.Holds task) : pool.spawn.Holds task :=
  h.imp id (Or.imp (fun ⟨w, hmem, hw⟩ => ⟨w, List.mem_append_left _ hmem, hw⟩) id)

theorem replace (h : pool.Holds task) (worker : Nat) : (pool.replace worker).Holds task := by
  rw [Pool.replace]
  split
  · have hretired : { pool with
        active := pool.active.erase worker
        retired := worker :: pool.retired }.Holds task := h
    exact hretired.spawn
  · exact h.spawn

theorem submit (h : pool.Holds task) (request : Request) : (pool.submit request).Holds task :=
  h.imp (fun ⟨r, hmem, htask⟩ => ⟨r, List.mem_append_left _ hmem, htask⟩) id

/-- Reading an event leaves the request held, unless it is the answer. -/
theorem tail_events (h : pool.Holds task) {event : Event} {rest : List Event}
    (hevents : pool.events = event :: rest)
    (hother : ∀ worker result, event ≠ .finished task worker result) :
    { pool with events := rest }.Holds task := by
  refine h.imp id (Or.imp id fun ⟨worker, result, hmem⟩ => ⟨worker, result, ?_⟩)
  rw [hevents] at hmem
  rcases List.mem_cons.mp hmem with heq | hmem
  · exact absurd heq.symm (hother worker result)
  · exact hmem

end Holds

theorem holds_submit (request : Request) : (pool.submit request).Holds request.task :=
  .inl ⟨request, List.mem_append_right _ (List.mem_singleton.mpr rfl), rfl⟩

end Pool
end SceneLang

/-!
## Moves of a dispatch

What the moves come to, and why there cannot be infinitely many of them.  Every move lowers the
effort that is left: a request in the queue costs five, since it is taken, answered, reported
twice and followed by a look at the flag, and so on.  An idle worker costs nothing if workers only
move, but has to be counted where a worker may be lost.
-/

namespace SceneLang

/-! ## What moves come to -/

def TaskResult.timedOut (limit : Nat) (path : String) : TaskResult :=
  .failed path .taskTimeout s!"no result after {(Duration.ofMilliseconds limit).text}"

def TaskResult.lost (path : String) : TaskResult :=
  .failed path .workerFailure "every worker has stopped"

namespace Dispatch

variable {d next : Dispatch} {limit : Option Nat} {move : Move} {p q : Pending}

theorem mem_of_pending? {task : Nat} (h : d.pending? task = some p) :
    p ∈ d.pending ∧ p.task = task :=
  ⟨List.mem_of_find?_eq_some h, by simpa using List.find?_some h⟩

theorem mem_pending_settle (result : TaskResult) :
    q ∈ (d.settle p result).pending ↔ q ∈ d.pending ∧ q.task ≠ p.task := by
  simp [settle]

/-- Give up some requests, one after another. -/
def loseAll (requests : List Pending) (d : Dispatch) : Dispatch :=
  requests.foldl (fun d p => d.settle p (.lost p.path)) d

theorem abandon_eq :
    d.abandon = d.loseAll (d.pending.mergeSort fun a b => a.index ≤ b.index) :=
  rfl

theorem pool_loseAll (requests : List Pending) : (d.loseAll requests).pool = d.pool := by
  induction requests generalizing d with
  | nil => rfl
  | cons p rest ih => exact ih

theorem mem_pending_loseAll {requests : List Pending} :
    q ∈ (d.loseAll requests).pending ↔
      q ∈ d.pending ∧ ∀ p ∈ requests, q.task ≠ p.task := by
  induction requests generalizing d with
  | nil => simp [loseAll]
  | cons p rest ih =>
      change q ∈ ((d.settle p (.lost p.path)).loseAll rest).pending ↔ _
      rw [ih, mem_pending_settle, List.forall_mem_cons, and_assoc]

@[simp] theorem pool_abandon : d.abandon.pool = d.pool :=
  pool_loseAll _

@[simp] theorem pending_abandon : d.abandon.pending = [] := by
  rw [List.eq_nil_iff_forall_not_mem]
  intro q hmem
  rw [abandon_eq, mem_pending_loseAll] at hmem
  exact hmem.2 q (List.mem_mergeSort.mpr hmem.1) rfl

/-- The numbers of the requests that a move gives up. -/
def givesUp (d : Dispatch) : Move → List Nat
  | .expire task => [task]
  | .abandon => (d.pending.mergeSort fun a b => a.index ≤ b.index).map (·.task)
  | _ => []

/-- The ways in which a dispatch goes on, with the numbers of the requests that are given up. -/
inductive Goes (limit : Option Nat) (d : Dispatch) : List Nat → Dispatch → Prop where
  | works {pool : Pool} : d.pool.Works pool → Goes limit d [] { d with pool := pool }
  | receives {event : Event} {rest : List Event} : d.pool.events = event :: rest →
      Goes limit d [] ({ d with pool := { d.pool with events := rest } }.observe event)
  | expires {time worker : Nat} {p : Pending} : limit = some time → p ∈ d.pending →
      p.worker = some worker →
      Goes limit d [p.task]
        { d.settle p (.timedOut time p.path) with pool := d.pool.replace worker }
  | abandons : d.pool.isDead → Goes limit d (d.givesUp .abandon) d.abandon

theorem goes_of_step? (h : d.step? limit move = some next) :
    d.Goes limit (d.givesUp move) next := by
  cases move with
  | take worker =>
      obtain ⟨pool, hpool, rfl⟩ := Option.map_eq_some_iff.mp h
      exact .works ⟨worker, .inl hpool⟩
  | answer worker =>
      obtain ⟨pool, hpool, rfl⟩ := Option.map_eq_some_iff.mp h
      exact .works ⟨worker, .inr (.inl hpool)⟩
  | check worker =>
      obtain ⟨pool, hpool, rfl⟩ := Option.map_eq_some_iff.mp h
      exact .works ⟨worker, .inr (.inr hpool)⟩
  | receive =>
      simp only [step?, receive?] at h
      split at h
      next => contradiction
      next event rest hevents =>
        cases h
        exact .receives hevents
  | expire task =>
      simp only [step?, expire?] at h
      split at h
      next time p hfind =>
        obtain ⟨worker, hworker, rfl⟩ := Option.map_eq_some_iff.mp h
        obtain ⟨hmem, rfl⟩ := mem_of_pending? hfind
        exact .expires rfl hmem hworker
      next => contradiction
  | abandon =>
      simp only [step?] at h
      split at h
      next hdead =>
        cases h
        exact .abandons hdead
      next => contradiction

/-- What is given up has been open. -/
theorem mem_of_goes {given : List Nat} {task : Nat} (h : d.Goes limit given next)
    (hmem : task ∈ given) : ∃ p ∈ d.pending, p.task = task := by
  cases h with
  | works _ => simp at hmem
  | receives _ => simp at hmem
  | @expires _ _ p _ hp _ => exact ⟨p, hp, (List.mem_singleton.mp hmem).symm⟩
  | abandons _ =>
      obtain ⟨p, hp, htask⟩ := List.mem_map.mp hmem
      exact ⟨p, List.mem_mergeSort.mp hp, htask⟩

end Dispatch

/-! ## Effort -/

def Phase.effort (idle : Nat) : Phase → Nat
  | .waiting => idle
  | .running _ => idle + 3
  | .answered => idle + 1
  | .stopped => 0

namespace Pool

variable {pool next : Pool} {worker : Nat} {old : Phase} (idle : Nat)

/-- What workers count for together, each by its phase. -/
def total (count : Phase → Nat) (workers : List Worker) : Nat :=
  workers.foldr (fun w rest => count w.phase + rest) 0

theorem total_cons (count : Phase → Nat) (w : Worker) (rest : List Worker) :
    total count (w :: rest) = count w.phase + total count rest :=
  rfl

theorem total_append (count : Phase → Nat) (front back : List Worker) :
    total count (front ++ back) = total count front + total count back := by
  induction front with
  | nil => simp [total]
  | cons w rest ih => simp only [List.cons_append, total_cons, ih, Nat.add_assoc]

def effort (idle : Nat) (pool : Pool) : Nat :=
  5 * pool.queue.length + total (Phase.effort idle) pool.workers + pool.events.length

/-- A change of one phase changes the total by what the two phases differ in. -/
theorem total_setPhase (count : Phase → Nat) (phase : Phase) (hids : pool.ids.Nodup)
    (hold : pool.phase? worker = some old) :
    total count (pool.setPhase worker phase) + count old =
      total count pool.workers + count phase := by
  obtain ⟨front, back, hsplit⟩ := List.append_of_mem (mem_of_phase? hold)
  have hkeep (l : List Worker) (hl : ∀ w ∈ l, w.id ≠ worker) :
      l.map (fun w => if w.id = worker then ⟨w.id, phase⟩ else w) = l := by
    conv_rhs => rw [← List.map_id l]
    apply List.map_congr_left
    intro w hmem
    simp [hl w hmem]
  have hother : (∀ w ∈ front, w.id ≠ worker) ∧ ∀ w ∈ back, w.id ≠ worker := by
    rw [ids, hsplit, List.map_append, List.map_cons, List.nodup_middle, List.nodup_cons,
      List.mem_append, not_or] at hids
    exact ⟨fun w hmem heq => hids.1.1 (List.mem_map.mpr ⟨w, hmem, heq⟩),
      fun w hmem heq => hids.1.2 (List.mem_map.mpr ⟨w, hmem, heq⟩)⟩
  have hset : pool.setPhase worker phase = front ++ ⟨worker, phase⟩ :: back := by
    rw [setPhase, hsplit, List.map_append, List.map_cons, hkeep front hother.1,
      hkeep back hother.2, if_pos rfl]
  simp only [hset, hsplit, total_append, total_cons]
  omega

theorem effort_works (hids : pool.ids.Nodup) (h : pool.Works next) :
    next.effort idle < pool.effort idle := by
  obtain ⟨worker, htake | hanswer | hcheck⟩ := h
  · obtain ⟨request, rest, hold, hqueue, rfl⟩ := take?_eq_some_iff.mp htake
    have htotal := total_setPhase (Phase.effort idle) (.running request) hids hold
    simp only [effort, hqueue, List.length_cons, List.length_append, List.length_nil,
      Phase.effort] at htotal ⊢
    omega
  · obtain ⟨request, hold, rfl⟩ := answer?_eq_some_iff.mp hanswer
    have htotal := total_setPhase (Phase.effort idle) .answered hids hold
    simp only [effort, List.length_append, List.length_cons, List.length_nil,
      Phase.effort] at htotal ⊢
    omega
  · obtain ⟨hold, rfl⟩ := check?_eq_some_iff.mp hcheck
    have htotal (phase : Phase) := total_setPhase (Phase.effort idle) phase hids hold
    simp only [effort]
    split
    · have hstopped := htotal .stopped
      simp only [Phase.effort] at hstopped ⊢
      omega
    · have hwaiting := htotal .waiting
      simp only [Phase.effort] at hwaiting ⊢
      omega

theorem effort_spawn : pool.spawn.effort idle = pool.effort idle + idle := by
  have hnew : total (Phase.effort idle) [⟨pool.nextId, .waiting⟩] = idle := rfl
  simp only [effort, spawn, total_append, hnew]
  omega

theorem effort_replace : (pool.replace worker).effort idle = pool.effort idle + idle := by
  rw [replace]
  split <;> exact effort_spawn idle

end Pool

namespace Dispatch

variable {d next : Dispatch} {limit : Option Nat} (idle : Nat)

/-- An open request may cost one more worker. -/
def effort (idle : Nat) (d : Dispatch) : Nat :=
  d.pool.effort idle + (idle + 1) * d.pending.length

theorem work_eq_effort : d.work = d.effort 0 := by
  have htotal (f : Worker → Nat) (hf : ∀ w, f w = w.phase.effort 0) (l : List Worker) :
      l.foldr (fun w rest => f w + rest) 0 = Pool.total (Phase.effort 0) l := by
    induction l with
    | nil => rfl
    | cons w rest ih => rw [List.foldr_cons, Pool.total_cons, ih, hf]
  simp only [work, effort, Pool.effort]
  rw [htotal]
  · omega
  · intro w
    cases w.phase <;> rfl

theorem length_observe_le (event : Event) :
    (d.observe event).pending.length ≤ d.pending.length := by
  cases event with
  | started task worker => simp [observe]
  | finished task worker result =>
      simp only [observe]
      split
      · exact List.length_filter_le ..
      · exact Nat.le_refl _

theorem pool_observe (event : Event) : (d.observe event).pool = d.pool := by
  cases event with
  | started task worker => rfl
  | finished task worker result =>
      simp only [observe]
      split <;> rfl

theorem length_settle_lt {p : Pending} (hmem : p ∈ d.pending) (result : TaskResult) :
    (d.settle p result).pending.length < d.pending.length :=
  List.length_filter_lt_length_iff_exists.mpr ⟨p, hmem, by simp⟩

theorem effort_goes (hids : d.pool.ids.Nodup) (hpending : d.pending ≠ [])
    {given : List Nat} (h : d.Goes limit given next) : next.effort idle < d.effort idle := by
  cases h with
  | works hworks => exact Nat.add_lt_add_right (Pool.effort_works idle hids hworks) _
  | @receives event rest hevents =>
      have hlength := length_observe_le (d := { d with pool := { d.pool with events := rest } })
        event
      have hless := Nat.mul_le_mul_left (idle + 1) hlength
      simp only [effort, pool_observe, Pool.effort, hevents, List.length_cons] at hless ⊢
      omega
  | @expires time worker p _ hmem _ =>
      have hless := Nat.mul_le_mul_left (idle + 1)
        (Nat.succ_le_of_lt (length_settle_lt hmem (.timedOut time p.path)))
      simp only [effort, Pool.effort_replace] at hless ⊢
      rw [Nat.mul_succ] at hless
      omega
  | abandons _ =>
      have hpos : 0 < (idle + 1) * d.pending.length :=
        Nat.mul_pos (Nat.succ_pos idle) (List.length_pos_of_ne_nil hpending)
      simp only [effort, pool_abandon, pending_abandon, List.length_nil, Nat.mul_zero]
      omega

end Dispatch
end SceneLang
