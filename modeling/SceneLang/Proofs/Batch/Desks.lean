import Mathlib.Logic.Relation
import Mathlib.Tactic.Ring
import SceneLang.Proofs.Batch.Dispatches

/-!
# Calls of one parser, one after another

A desk is a parser that is called again and again.  Its pool outlives the calls, and with it the
requests that were given up and whose answers are still to come.  Workers move at any time, also
between two calls; events are read only as long as requests are open.
-/

namespace SceneLang

/-! ## The steps of a desk -/

/-- What a call has answered. -/
structure Answer where
  files : List SourceFile
  result : BatchResult
  progress : List Progress

def Answer.ofTally (options : BatchOptions) (files : List SourceFile) (tally : Tally) : Answer :=
  ⟨files, .ofResults tally.results, if options.progress then tally.progress else []⟩

/-- A call that is not answered yet: its files, and the requests that have not been handed out. -/
structure Call where
  files : List SourceFile
  waiting : List (Nat × Request)
  dispatch : Dispatch

def Call.handOut (options : BatchOptions) (call : Call) : Call :=
  { call with
    waiting := call.waiting.drop options.effectiveBatchSize
    dispatch := call.dispatch.submitAll (call.waiting.take options.effectiveBatchSize) }

structure Desk where
  /-- While a call is open, the pool is with its dispatch. -/
  parser : BatchParser
  call : Option Call
  /-- Calls that have been answered, oldest first. -/
  answered : List Answer
  /-- The numbers of the requests that have been given up. -/
  givenUp : List Nat

namespace Desk

def start (options : BatchOptions) : Desk := ⟨.new options, none, [], []⟩

/-- Take note of a new call. -/
def enter (files : List SourceFile) (desk : Desk) : Desk :=
  let pool := desk.parser.pool.getD (.start desk.parser.options.workers)
  { desk with
    parser := { desk.parser with pool := none, nextTask := desk.parser.nextTask + files.length }
    call := some ⟨files, desk.parser.requests files, ⟨pool, [], .start files.length⟩⟩ }

/-- Answer a call without any workers. -/
def answerAlone (files : List SourceFile) (desk : Desk) : Desk :=
  let tally := BatchParser.sequentially (desk.parser.requests files) (.start files.length)
  { desk with
    parser := { desk.parser with nextTask := desk.parser.nextTask + files.length }
    answered := desk.answered ++ [.ofTally desk.parser.options files tally] }

/-- Answer a call with what has been recorded. -/
def leave (call : Call) (desk : Desk) : Desk :=
  { desk with
    parser := { desk.parser with pool := some call.dispatch.pool }
    call := none
    answered := desk.answered ++ [.ofTally desk.parser.options call.files call.dispatch.tally] }

def pool? (desk : Desk) : Option Pool :=
  match desk.call with
  | some call => some call.dispatch.pool
  | none => desk.parser.pool

def setPool (pool : Pool) (desk : Desk) : Desk :=
  match desk.call with
  | some call =>
      { desk with call := some { call with dispatch := { call.dispatch with pool := pool } } }
  | none => { desk with parser := { desk.parser with pool := some pool } }

theorem setPool_of_call {desk : Desk} {call : Call} (hcall : desk.call = some call) (pool : Pool) :
    desk.setPool pool =
      { desk with call := some { call with dispatch := { call.dispatch with pool := pool } } } := by
  simp only [setPool, hcall]

/-- What can happen next.  Workers are lost only if that is allowed. -/
inductive Step (lossy : Bool) (desk : Desk) : Desk → Prop where
  | enter (files : List SourceFile) : desk.call = none → desk.parser.closed = false →
      desk.parser.options.workers ≠ 0 → Step lossy desk (desk.enter files)
  | alone (files : List SourceFile) : desk.call = none → desk.parser.closed = false →
      desk.parser.options.workers = 0 → Step lossy desk (desk.answerAlone files)
  | handOut {call : Call} : desk.call = some call → call.dispatch.pending = [] →
      call.waiting ≠ [] →
      Step lossy desk { desk with call := some (call.handOut desk.parser.options) }
  | move {call : Call} {next : Dispatch} (move : Move) : desk.call = some call →
      call.dispatch.pending ≠ [] →
      call.dispatch.step? desk.parser.options.timeout move = some next →
      Step lossy desk { desk with
        call := some { call with dispatch := next }
        givenUp := desk.givenUp ++ call.dispatch.givesUp move }
  | work {pool next : Pool} : desk.pool? = some pool → pool.Works next →
      Step lossy desk (desk.setPool next)
  | lose {pool : Pool} {worker : Nat} {phase : Phase} : lossy = true → desk.pool? = some pool →
      pool.phase? worker = some phase → phase ≠ .stopped →
      Step lossy desk (desk.setPool (pool.lose worker))
  | leave {call : Call} : desk.call = some call → call.dispatch.pending = [] →
      call.waiting = [] → Step lossy desk (desk.leave call)
  | shutDown : desk.call = none → Step lossy desk { desk with parser := desk.parser.shutDown }

/-- Any number of steps. -/
def Reaches (lossy : Bool) : Desk → Desk → Prop :=
  Relation.ReflTransGen (Step lossy)

theorem Step.allow_loss {desk next : Desk} (h : desk.Step false next) : desk.Step true next := by
  cases h with
  | enter files hcall hclosed hworkers => exact .enter files hcall hclosed hworkers
  | alone files hcall hclosed hworkers => exact .alone files hcall hclosed hworkers
  | handOut hcall hpending hwaiting => exact .handOut hcall hpending hwaiting
  | move move hcall hpending hmove => exact .move move hcall hpending hmove
  | work hpool hworks => exact .work hpool hworks
  | lose hlossy => contradiction
  | leave hcall hpending hwaiting => exact .leave hcall hpending hwaiting
  | shutDown hcall => exact .shutDown hcall

end Desk

/-! ## The requests of a call -/

namespace BatchParser

variable {parser : BatchParser} {files : List SourceFile}

/-- Files in the order in which they are handed out, each with its index. -/
theorem perm_ordered :
    (files.zipIdx.mergeSort fun a b => b.1.size ≤ a.1.size).Perm files.zipIdx :=
  List.mergeSort_perm _ _

theorem tasks_requests : (parser.requests files).map (·.2.task) =
    List.range' parser.nextTask files.length := by
  have hlength : (files.zipIdx.mergeSort fun a b => b.1.size ≤ a.1.size).length =
      files.length := by
    rw [perm_ordered.length_eq, List.length_zipIdx]
  calc (parser.requests files).map (·.2.task)
      = ((files.zipIdx.mergeSort fun a b => b.1.size ≤ a.1.size).zipIdx.map Prod.snd).map
          (parser.nextTask + ·) := by
        simp only [requests, List.map_map]
        rfl
    _ = List.range' parser.nextTask files.length := by
        rw [List.zipIdx_map_snd, hlength, List.map_add_range', Nat.add_zero]

theorem indices_requests (parser : BatchParser) (files : List SourceFile) :
    ((parser.requests files).map Prod.fst).Perm (List.range files.length) := by
  have hindices : (parser.requests files).map Prod.fst =
      (files.zipIdx.mergeSort fun a b => b.1.size ≤ a.1.size).map Prod.snd := by
    conv_rhs => rw [← List.zipIdx_map_fst 0 (files.zipIdx.mergeSort _)]
    simp only [requests, List.map_map]
    rfl
  rw [hindices, List.range_eq_range', ← List.zipIdx_map_snd 0 files]
  exact perm_ordered.map Prod.snd

theorem of_mem_requests {entry : Nat × Request} (h : entry ∈ parser.requests files) :
    files[entry.1]? = some entry.2.file ∧ entry.2.options = parser.options.parser := by
  obtain ⟨⟨⟨file, index⟩, position⟩, hmem, rfl⟩ := List.mem_map.mp h
  have hordered := List.fst_mem_of_mem_zipIdx hmem
  have hfile := List.mem_zipIdx_iff_getElem?.mp (perm_ordered.mem_iff.mp hordered)
  exact ⟨hfile, rfl⟩

theorem issued_requests {options : BatchOptions} {issued : List Request}
    (hissued : Issued options parser.nextTask issued) (hoptions : parser.options = options) :
    Issued options (parser.nextTask + files.length)
      (issued ++ (parser.requests files).map Prod.snd) where
  tasks := by
    have htasks : ((parser.requests files).map Prod.snd).map (·.task) =
        List.range' parser.nextTask files.length := by
      rw [List.map_map]
      exact tasks_requests
    have hsplit := @List.range'_append 0 parser.nextTask files.length 1
    rw [Nat.zero_add, Nat.one_mul] at hsplit
    rw [List.map_append, hissued.tasks, htasks, List.range_eq_range', List.range_eq_range', hsplit]
  options := by
    intro request hmem
    rcases List.mem_append.mp hmem with hmem | hmem
    · exact hissued.options request hmem
    · obtain ⟨entry, hentry, rfl⟩ := List.mem_map.mp hmem
      rw [← hoptions]
      exact (of_mem_requests hentry).2

theorem sequentially_eq (requests : List (Nat × Request)) (tally : Tally) :
    sequentially requests tally =
      tally.recordAll (requests.map fun entry => (entry.1, entry.2.file.parse entry.2.options)) := by
  rw [sequentially, Tally.recordAll, List.foldl_map]

theorem complete_sequentially {options : BatchOptions} (files : List SourceFile)
    (hoptions : parser.options = options) :
    ∃ results, (sequentially (parser.requests files) (.start files.length)).Complete
      (fun file result => result = file.parse options.parser) files results := by
  rw [sequentially_eq]
  apply Tally.complete_recordAll
  · simpa [List.map_map, Function.comp_def] using parser.indices_requests files
  · intro entry hentry
    obtain ⟨⟨index, request⟩, hrequest, rfl⟩ := List.mem_map.mp hentry
    obtain ⟨hfile, hparser⟩ := of_mem_requests hrequest
    exact ⟨request.file, hfile, by rw [← hoptions, ← hparser], rfl⟩

end BatchParser

/-! ## What holds of a desk -/

/-- An answer has one result of each file, in order, and one row of the progress for each. -/
structure Answer.Right (options : BatchOptions) (lossy : Bool) (answer : Answer) : Prop where
  results : ∃ results, answer.result = .ofResults results ∧
    List.Forall₂ (fun file result => result.Outcome options lossy file) answer.files results
  completed : options.progress = true →
    answer.progress.map (·.completed) = List.range' 1 answer.files.length
  reported : options.progress = true →
    (answer.progress.map (·.file)).Perm (answer.files.map (·.path))
  total : ∀ row ∈ answer.progress, row.total = answer.files.length

theorem Answer.right_ofTally {options : BatchOptions} {lossy : Bool} {files : List SourceFile}
    {tally : Tally} {results : List TaskResult}
    (h : tally.Complete (fun file result => result.Outcome options lossy file) files results) :
    (Answer.ofTally options files tally).Right options lossy := by
  constructor
  · exact ⟨results, congrArg BatchResult.ofResults h.results_eq, h.outcomes⟩
  · intro hprogress
    simpa [ofTally, hprogress] using h.completed
  · intro hprogress
    simpa [ofTally, hprogress] using h.reported
  · intro row hrow
    cases hprogress : options.progress with
    | false => simp [ofTally, hprogress] at hrow
    | true => exact h.total row (by simpa [ofTally, hprogress] using hrow)

namespace Desk

variable {options : BatchOptions} {lossy : Bool} {desk next : Desk} {issued : List Request}

/-- Between two calls the pool is ready; during a call its dispatch is as it should be. -/
def Settled (lossy : Bool) (issued : List Request) (desk : Desk) : Prop :=
  match desk.call with
  | none => desk.givenUp.Nodup ∧ ∀ pool, desk.parser.pool = some pool → pool.Ready lossy issued
  | some call => ∃ log, call.dispatch.Sound desk.parser.options lossy call.files issued
      call.waiting desk.givenUp log

structure Sound (options : BatchOptions) (lossy : Bool) (desk : Desk) : Prop where
  configured : desk.parser.options = options
  answered : ∀ answer ∈ desk.answered, answer.Right options lossy
  state : ∃ issued, Issued options desk.parser.nextTask issued ∧
    (∀ task ∈ desk.givenUp, task < desk.parser.nextTask) ∧ desk.Settled lossy issued

theorem sound_start (options : BatchOptions) (lossy : Bool) : (start options).Sound options lossy where
  configured := rfl
  answered := by simp [start]
  state := ⟨[], ⟨rfl, by simp⟩, by simp [start], List.nodup_nil, by simp [start, BatchParser.new]⟩

namespace Sound

/-- What is known of a desk while a call is open. -/
theorem of_call {call : Call} (h : desk.Sound options lossy) (hcall : desk.call = some call) :
    ∃ issued log, Issued options desk.parser.nextTask issued ∧
      (∀ task ∈ desk.givenUp, task < desk.parser.nextTask) ∧
      call.dispatch.Sound options lossy call.files issued call.waiting desk.givenUp log := by
  obtain ⟨issued, hissued, hlt, hsettled⟩ := h.state
  simp only [Settled, hcall, h.configured] at hsettled
  obtain ⟨log, hdispatch⟩ := hsettled
  exact ⟨issued, log, hissued, hlt, hdispatch⟩

/-- A desk with an open call is sound if its dispatch is. -/
theorem with_call (call : Call) (given : List Nat) {log : List (Nat × TaskResult)}
    (h : desk.Sound options lossy) (hissued : Issued options desk.parser.nextTask issued)
    (hlt : ∀ task ∈ desk.givenUp ++ given, task < desk.parser.nextTask)
    (hdispatch : call.dispatch.Sound options lossy call.files issued call.waiting
      (desk.givenUp ++ given) log) :
    { desk with call := some call, givenUp := desk.givenUp ++ given }.Sound options lossy where
  configured := h.configured
  answered := h.answered
  state := by
    refine ⟨issued, hissued, hlt, ?_⟩
    simp only [Settled, h.configured]
    exact ⟨log, hdispatch⟩

theorem enter (h : desk.Sound options lossy) (files : List SourceFile) (hcall : desk.call = none)
    (hworkers : desk.parser.options.workers ≠ 0) : (desk.enter files).Sound options lossy := by
  obtain ⟨issued, hissued, hlt, hsettled⟩ := h.state
  simp only [Settled, hcall] at hsettled
  obtain ⟨hnodup, hpool⟩ := hsettled
  have hready : (desk.parser.pool.getD (.start desk.parser.options.workers)).Ready lossy issued := by
    cases hsome : desk.parser.pool with
    | none => exact Pool.ready_start hworkers
    | some pool => exact hpool pool hsome
  constructor
  · exact h.configured
  · exact h.answered
  · refine ⟨_, BatchParser.issued_requests hissued h.configured, ?_, [], ?_⟩
    · exact fun task hmem => Nat.lt_add_right _ (hlt task hmem)
    constructor
    · exact hready.mono fun r hr => List.mem_append_left _ hr
    · rfl
    · simpa using desk.parser.indices_requests files
    · simp
    · simp
    · intro entry hentry
      refine ⟨?_, (BatchParser.of_mem_requests hentry).1⟩
      exact List.mem_append_right _ (List.mem_map_of_mem hentry)
    · rw [List.map_nil, List.nil_append, BatchParser.tasks_requests]
      refine List.Nodup.append hnodup List.nodup_range' ?_
      intro task hgiven hnew
      exact absurd (hlt task hgiven) (Nat.not_lt.mpr (List.mem_range'_1.mp hnew).1)
    · simp
    · simp

theorem answerAlone (h : desk.Sound options lossy) (files : List SourceFile)
    (hcall : desk.call = none) : (desk.answerAlone files).Sound options lossy := by
  obtain ⟨issued, hissued, hlt, hsettled⟩ := h.state
  simp only [Settled, hcall] at hsettled
  obtain ⟨results, hcomplete⟩ := BatchParser.complete_sequentially files h.configured
  constructor
  · exact h.configured
  · intro answer hmem
    rcases List.mem_append.mp hmem with hmem | hmem
    · exact h.answered answer hmem
    · rw [List.mem_singleton.mp hmem, h.configured]
      refine Answer.right_ofTally (?_ : Tally.Complete _ files _ results)
      exact { hcomplete with outcomes := hcomplete.outcomes.imp fun _ _ heq => heq ▸ .parsed }
  · refine ⟨_, BatchParser.issued_requests hissued h.configured, ?_, ?_⟩
    · exact fun task hmem => Nat.lt_add_right _ (hlt task hmem)
    · simp only [Settled, Desk.answerAlone, hcall]
      exact ⟨hsettled.1, fun pool hpool =>
        (hsettled.2 pool hpool).mono fun r hr => List.mem_append_left _ hr⟩

theorem leave {call : Call} (h : desk.Sound options lossy) (hcall : desk.call = some call)
    (hpending : call.dispatch.pending = []) (hwaiting : call.waiting = []) :
    (desk.leave call).Sound options lossy := by
  obtain ⟨issued, log, hissued, hlt, hdispatch⟩ := h.of_call hcall
  have hnodup := hdispatch.tasks.of_append_left
  rw [hwaiting] at hdispatch
  obtain ⟨results, hcomplete⟩ := hdispatch.complete hpending
  constructor
  · exact h.configured
  · intro answer hmem
    rcases List.mem_append.mp hmem with hmem | hmem
    · exact h.answered answer hmem
    · rw [List.mem_singleton.mp hmem, h.configured]
      exact Answer.right_ofTally hcomplete
  · refine ⟨issued, hissued, hlt, hnodup, ?_⟩
    intro pool hpool
    cases hpool
    exact hdispatch.ready

/-- The pool may change in any way that keeps what holds of it, whether a call is open or not. -/
theorem setPool {pool pool' : Pool} (h : desk.Sound options lossy)
    (hpool : desk.pool? = some pool)
    (hready : ∀ issued, pool.Ready lossy issued → pool'.Ready lossy issued)
    (hdispatch : ∀ (d : Dispatch) files issued waiting givenUp log, d.pool = pool →
      d.Sound options lossy files issued waiting givenUp log →
      { d with pool := pool' }.Sound options lossy files issued waiting givenUp log) :
    (desk.setPool pool').Sound options lossy := by
  cases hcall : desk.call with
  | none =>
      obtain ⟨issued, hissued, hlt, hsettled⟩ := h.state
      simp only [Settled, hcall] at hsettled
      simp only [pool?, hcall] at hpool
      simp only [Desk.setPool, hcall]
      refine ⟨h.configured, h.answered, issued, hissued, hlt, ?_⟩
      simp only [Settled]
      refine ⟨hsettled.1, fun other hother => ?_⟩
      cases hother
      exact hready issued (hsettled.2 pool hpool)
  | some call =>
      obtain ⟨issued, log, hissued, hlt, hsound⟩ := h.of_call hcall
      simp only [pool?, hcall, Option.some.injEq] at hpool
      have hnext := h.with_call { call with dispatch := { call.dispatch with pool := pool' } } [] hissued
        (by simpa using hlt) (by simpa using hdispatch _ _ _ _ _ _ hpool hsound)
      rw [setPool_of_call hcall]
      simpa using hnext

theorem move {call : Call} {move : Move} {d : Dispatch} (h : desk.Sound options lossy)
    (hcall : desk.call = some call)
    (hmove : call.dispatch.step? desk.parser.options.timeout move = some d) :
    { desk with
      call := some { call with dispatch := d }
      givenUp := desk.givenUp ++ call.dispatch.givesUp move }.Sound options lossy := by
  obtain ⟨issued, log, hissued, hlt, hdispatch⟩ := h.of_call hcall
  rw [h.configured] at hmove
  have hgoes := Dispatch.goes_of_step? hmove
  obtain ⟨log', hnext⟩ := hdispatch.goes hissued hgoes
  refine h.with_call { call with dispatch := d } _ hissued ?_ hnext
  intro task hmem
  rcases List.mem_append.mp hmem with hmem | hmem
  · exact hlt task hmem
  · obtain ⟨p, hp, rfl⟩ := Dispatch.mem_of_goes hgoes hmem
    obtain ⟨request, hrequest, htask, _⟩ := hdispatch.asked p hp
    exact htask ▸ hissued.lt hrequest

/-- Every step keeps what holds of a desk. -/
theorem step (h : desk.Sound options lossy) (hstep : desk.Step lossy next) :
    next.Sound options lossy := by
  cases hstep with
  | enter files hcall _ hworkers => exact h.enter files hcall hworkers
  | alone files hcall _ _ => exact h.answerAlone files hcall
  | @handOut call hcall _ _ =>
      obtain ⟨issued, log, hissued, hlt, hdispatch⟩ := h.of_call hcall
      have hparts := List.take_append_drop desk.parser.options.effectiveBatchSize call.waiting
      rw [← hparts] at hdispatch
      have hnext := h.with_call (call.handOut desk.parser.options) [] hissued
        (by simpa using hlt) (by simpa [Call.handOut] using hdispatch.submitAll)
      simpa using hnext
  | move move hcall _ hmove => exact h.move hcall hmove
  | work hpool hworks =>
      apply h.setPool hpool (fun _ hready => hready.works hworks)
      rintro d files issued waiting givenUp log rfl hdispatch
      exact hdispatch.works hworks
  | @lose pool worker phase hlossy hpool _ _ =>
      subst hlossy
      apply h.setPool hpool (fun _ hready => hready.lose worker)
      rintro d files issued waiting givenUp log rfl hdispatch
      exact hdispatch.lose worker
  | leave hcall hpending hwaiting => exact h.leave hcall hpending hwaiting
  | shutDown hcall =>
      obtain ⟨issued, hissued, hlt, hsettled⟩ := h.state
      simp only [Settled, hcall] at hsettled
      refine ⟨h.configured, h.answered, issued, hissued, hlt, ?_⟩
      simp only [Settled, hcall]
      exact ⟨hsettled.1, by simp [BatchParser.shutDown]⟩

theorem reaches (h : desk.Sound options lossy) (hreaches : Reaches lossy desk next) :
    next.Sound options lossy := by
  induction hreaches with
  | refl => exact h
  | tail _ hstep ih => exact ih.step hstep

end Sound

/-! ## Every call is answered -/

end Desk

/-- A file that waits may cost a request, and that request one more worker. -/
def Call.effort (call : Call) : Nat :=
  call.dispatch.effort 1 + 8 * call.waiting.length

namespace Desk

variable {options : BatchOptions} {lossy : Bool} {desk next : Desk}

end Desk
end SceneLang
