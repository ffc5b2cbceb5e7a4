import SceneLang.Proofs.Batch.Moves
import SceneLang.Proofs.Batch.Tallies

/-!
# What holds while files are handed out

Each file of a call is in one of three places: its result has been recorded, its request is open,
or it is still waiting to be handed out.  Since no two requests have the same number, an answer is
recorded for the file that it was given for, and an answer to a request that has been given up is
passed over, even if it arrives much later.
-/

namespace SceneLang

/-! ## What may come of a file -/

/-- What may come of a file: what parsing it gives, or, if there is a limit of time, or workers may
be lost, a result that says so. -/
inductive TaskResult.Outcome (options : BatchOptions) (lossy : Bool) (file : SourceFile) :
    TaskResult → Prop where
  | parsed : Outcome options lossy file (file.parse options.parser)
  | timedOut {limit : Nat} : options.timeout = some limit →
      Outcome options lossy file (.timedOut limit file.path)
  | lost : lossy = true → Outcome options lossy file (.lost file.path)

theorem TaskResult.Outcome.path_eq {options : BatchOptions} {lossy : Bool} {file : SourceFile}
    {result : TaskResult} (h : result.Outcome options lossy file) : result.path = file.path := by
  cases h <;> rfl

/-- Requests made so far: they are numbered from zero on. -/
structure Issued (options : BatchOptions) (nextTask : Nat) (issued : List Request) : Prop where
  tasks : issued.map (·.task) = List.range nextTask
  options : ∀ request ∈ issued, request.options = options.parser

variable {options : BatchOptions} {lossy : Bool} {nextTask : Nat} {issued : List Request}

theorem Issued.eq_of_task_eq (h : Issued options nextTask issued) {r r' : Request}
    (hr : r ∈ issued) (hr' : r' ∈ issued) (htask : r.task = r'.task) : r = r' := by
  have hnodup : (issued.map (·.task)).Nodup := h.tasks ▸ List.nodup_range
  exact List.inj_on_of_nodup_map hnodup hr hr' htask

theorem Issued.lt (h : Issued options nextTask issued) {r : Request} (hr : r ∈ issued) :
    r.task < nextTask := by
  rw [← List.mem_range, ← h.tasks]
  exact List.mem_map_of_mem hr

/-! ## Pools that are ready -/

namespace Pool

variable {pool next : Pool}

/-- The pool has only requests that were made, and unless workers may be lost, those that count go
on. -/
structure Ready (lossy : Bool) (issued : List Request) (pool : Pool) : Prop where
  sound : pool.Sound
  carries : pool.Carries (· ∈ issued)
  loyal : lossy = false → pool.Loyal ∧ pool.active ≠ []

namespace Ready

theorem mono {issued' : List Request} (h : pool.Ready lossy issued)
    (hsub : ∀ r ∈ issued, r ∈ issued') : pool.Ready lossy issued' where
  sound := h.sound
  carries := h.carries.mono hsub
  loyal := h.loyal

theorem works (h : pool.Ready lossy issued) (hworks : pool.Works next) :
    next.Ready lossy issued where
  sound := h.sound.works hworks
  carries := h.carries.works hworks
  loyal := fun hlossy =>
    ⟨(h.loyal hlossy).1.works hworks, hworks.active_eq ▸ (h.loyal hlossy).2⟩

theorem replace (h : pool.Ready lossy issued) (worker : Nat) :
    (pool.replace worker).Ready lossy issued where
  sound := h.sound.replace worker
  carries := h.carries.replace worker
  loyal := fun hlossy => ⟨(h.loyal hlossy).1.replace worker, active_replace_ne_nil worker⟩

theorem lose (h : pool.Ready true issued) (worker : Nat) : (pool.lose worker).Ready true issued where
  sound := h.sound.lose worker
  carries := h.carries.lose worker
  loyal := by simp

theorem submit (h : pool.Ready lossy issued) {request : Request} (hmem : request ∈ issued) :
    (pool.submit request).Ready lossy issued where
  sound := h.sound.of_ids rfl rfl rfl rfl
  carries := h.carries.submit hmem
  loyal := h.loyal

theorem tail_events (h : pool.Ready lossy issued) {event : Event} {rest : List Event}
    (hevents : pool.events = event :: rest) :
    { pool with events := rest }.Ready lossy issued where
  sound := h.sound.of_ids rfl rfl rfl rfl
  carries := by
    have htail := h.carries.tail_events
    rwa [hevents] at htail
  loyal := h.loyal

end Ready

theorem ready_start {count : Nat} (hcount : count ≠ 0) : (start count).Ready lossy issued where
  sound := sound_start count
  carries := carries_start count
  loyal := fun _ => ⟨loyal_start count, active_start_ne_nil hcount⟩

end Pool

namespace Dispatch

variable {files : List SourceFile} {waiting : List (Nat × Request)} {givenUp : List Nat}
  {log : List (Nat × TaskResult)} {d next : Dispatch} {p : Pending} {result : TaskResult}

/-! ## The invariant -/

/-- Each file has a result in the log, an open request, or is waiting; the numbers of open
requests, those waiting and those given up are all different. -/
structure Sound (options : BatchOptions) (lossy : Bool) (files : List SourceFile)
    (issued : List Request) (waiting : List (Nat × Request)) (givenUp : List Nat)
    (log : List (Nat × TaskResult)) (d : Dispatch) : Prop where
  ready : d.pool.Ready lossy issued
  tally : d.tally = (Tally.start files.length).recordAll log
  indices : (log.map Prod.fst ++ (d.pending.map (·.index) ++ waiting.map Prod.fst)).Perm
    (List.range files.length)
  logged : ∀ entry ∈ log, ∃ file, files[entry.1]? = some file ∧
    entry.2.Outcome options lossy file
  asked : ∀ p ∈ d.pending, ∃ request ∈ issued, request.task = p.task ∧
    request.file.path = p.path ∧ files[p.index]? = some request.file
  ahead : ∀ entry ∈ waiting, entry.2 ∈ issued ∧ files[entry.1]? = some entry.2.file
  tasks : (givenUp ++ (d.pending.map (·.task) ++ waiting.map (·.2.task))).Nodup
  announced : ∀ p ∈ d.pending, p.worker = none → d.pool.Announced p.task
  held : lossy = false → ∀ p ∈ d.pending, d.pool.Holds p.task

namespace Sound

theorem nodup_pending (h : d.Sound options lossy files issued waiting givenUp log) :
    (d.pending.map (·.task)).Nodup :=
  h.tasks.of_append_right.of_append_left

/-- An open request and the others. -/
theorem perm_pending (h : d.Sound options lossy files issued waiting givenUp log)
    (hmem : p ∈ d.pending) : d.pending.Perm (p :: d.pending.filter (·.task ≠ p.task)) := by
  obtain ⟨front, back, hsplit⟩ := List.append_of_mem hmem
  have hnodup := h.nodup_pending
  rw [hsplit, List.map_append, List.map_cons, List.nodup_middle, List.nodup_cons,
    List.mem_append, not_or] at hnodup
  have hkeep (l : List Pending) (hl : p.task ∉ l.map (·.task)) :
      l.filter (·.task ≠ p.task) = l := by
    rw [List.filter_eq_self]
    intro q hq
    simpa using fun heq => hl (List.mem_map.mpr ⟨q, hq, heq⟩)
  rw [hsplit, List.filter_append, List.filter_cons_of_neg (by simp), hkeep front hnodup.1.1,
    hkeep back hnodup.1.2]
  exact List.perm_middle

/-- The pool may change in any way that keeps the open requests. -/
theorem change_pool {pool : Pool} (h : d.Sound options lossy files issued waiting givenUp log)
    (hready : pool.Ready lossy issued)
    (hannounced : ∀ q ∈ d.pending, d.pool.Announced q.task → pool.Announced q.task)
    (hheld : ∀ q ∈ d.pending, d.pool.Holds q.task → pool.Holds q.task) :
    { d with pool := pool }.Sound options lossy files issued waiting givenUp log where
  ready := hready
  tally := h.tally
  indices := h.indices
  logged := h.logged
  asked := h.asked
  ahead := h.ahead
  tasks := h.tasks
  announced := fun q hq hworker => hannounced q hq (h.announced q hq hworker)
  held := fun hlossy q hq => hheld q hq (h.held hlossy q hq)

theorem works {pool : Pool} (h : d.Sound options lossy files issued waiting givenUp log)
    (hworks : d.pool.Works pool) :
    { d with pool := pool }.Sound options lossy files issued waiting givenUp log :=
  h.change_pool (h.ready.works hworks) (fun _ _ ha => ha.works hworks)
    (fun _ _ hh => hh.works h.ready.sound.ids hworks)

theorem lose (h : d.Sound options true files issued waiting givenUp log) (worker : Nat) :
    { d with pool := d.pool.lose worker }.Sound options true files issued waiting givenUp log where
  ready := h.ready.lose worker
  tally := h.tally
  indices := h.indices
  logged := h.logged
  asked := h.asked
  ahead := h.ahead
  tasks := h.tasks
  announced := h.announced
  held := by simp

theorem forget (h : d.Sound options lossy files issued waiting (givenUp ++ [p.task]) log) :
    d.Sound options lossy files issued waiting givenUp log where
  ready := h.ready
  tally := h.tally
  indices := h.indices
  logged := h.logged
  asked := h.asked
  ahead := h.ahead
  tasks := h.tasks.sublist ((List.sublist_append_left _ _).append (List.Sublist.refl _))
  announced := h.announced
  held := h.held

/-- A request is settled with a result of its file; the pool may drop what it has of it. -/
theorem settle {pool : Pool} (h : d.Sound options lossy files issued waiting givenUp log)
    (hmem : p ∈ d.pending)
    (houtcome : ∀ file, files[p.index]? = some file → file.path = p.path →
      result.Outcome options lossy file)
    (hready : pool.Ready lossy issued)
    (hannounced : ∀ q ∈ d.pending, q.task ≠ p.task → d.pool.Announced q.task →
      pool.Announced q.task)
    (hheld : ∀ q ∈ d.pending, q.task ≠ p.task → d.pool.Holds q.task → pool.Holds q.task) :
    { d.settle p result with pool := pool }.Sound options lossy files issued waiting
      (givenUp ++ [p.task]) (log ++ [(p.index, result)]) := by
  obtain ⟨request, hrequest, htask, hpath, hfile⟩ := h.asked p hmem
  have hresult := houtcome request.file hfile hpath
  have hperm := h.perm_pending hmem
  constructor
  · exact hready
  · rw [Tally.recordAll_concat, ← h.tally]
    change d.tally.record p.index p.path result = d.tally.record p.index result.path result
    rw [hresult.path_eq, hpath]
  · refine List.Perm.trans ?_ h.indices
    rw [List.map_append, List.append_assoc]
    apply List.Perm.append_left
    exact ((hperm.map (·.index)).append_right (waiting.map Prod.fst)).symm
  · intro entry hentry
    rcases List.mem_append.mp hentry with hentry | hentry
    · exact h.logged entry hentry
    · rw [List.mem_singleton.mp hentry]
      exact ⟨request.file, hfile, hresult⟩
  · exact fun q hq => h.asked q ((mem_pending_settle result).mp hq).1
  · exact h.ahead
  · refine (List.Perm.nodup_iff ?_).mp h.tasks
    rw [List.append_assoc]
    apply List.Perm.append_left
    exact (hperm.map (·.task)).append_right (waiting.map (·.2.task))
  · intro q hq hworker
    obtain ⟨hqmem, hne⟩ := (mem_pending_settle result).mp hq
    exact hannounced q hqmem hne (h.announced q hqmem hworker)
  · intro hlossy q hq
    obtain ⟨hqmem, hne⟩ := (mem_pending_settle result).mp hq
    exact hheld q hqmem hne (h.held hlossy q hqmem)

/-- All files of open requests are settled as lost. -/
theorem loseAll (h : d.Sound options true files issued waiting givenUp log)
    {requests : List Pending} (hmem : ∀ p ∈ requests, p ∈ d.pending)
    (hnodup : (requests.map (·.task)).Nodup) :
    (d.loseAll requests).Sound options true files issued waiting
      (givenUp ++ requests.map (·.task))
      (log ++ requests.map fun p => (p.index, .lost p.path)) := by
  induction requests generalizing d givenUp log with
  | nil => simpa [Dispatch.loseAll] using h
  | cons p rest ih =>
      rw [List.map_cons, List.nodup_cons] at hnodup
      have hsettle : (d.settle p (.lost p.path)).Sound options true files issued waiting
          (givenUp ++ [p.task]) (log ++ [(p.index, .lost p.path)]) :=
        h.settle (hmem p List.mem_cons_self) (fun file _ hpath => hpath ▸ .lost rfl) h.ready
          (fun _ _ _ ha => ha) (fun _ _ _ hh => hh)
      have hrest : ∀ q ∈ rest, q ∈ (d.settle p (.lost p.path)).pending := by
        intro q hq
        rw [mem_pending_settle]
        refine ⟨hmem q (List.mem_cons_of_mem p hq), fun htask => hnodup.1 ?_⟩
        exact List.mem_map.mpr ⟨q, hq, htask⟩
      have hall := ih hsettle hrest hnodup.2
      rw [List.append_assoc, List.append_assoc] at hall
      exact hall

end Sound

/-! ## Moves -/

theorem mem_pending_started {task worker : Nat} {q : Pending}
    (h : q ∈ (d.observe (.started task worker)).pending) :
    ∃ p ∈ d.pending, q.task = p.task ∧ q.index = p.index ∧ q.path = p.path ∧
      (q.worker = none → p.worker = none ∧ p.task ≠ task) := by
  obtain ⟨p, hp, rfl⟩ := List.mem_map.mp h
  refine ⟨p, hp, ?_⟩
  by_cases htask : p.task = task <;> simp [htask]

theorem observe_of_none {pool : Pool} {task worker : Nat} (h : d.pending? task = none) :
    { d with pool := pool }.observe (.finished task worker result) = { d with pool := pool } := by
  have hfind : { d with pool := pool }.pending? task = none := h
  simp only [observe, hfind]

theorem observe_of_some {pool : Pool} {task worker : Nat} (h : d.pending? task = some p) :
    { d with pool := pool }.observe (.finished task worker result) =
      { d.settle p result with pool := pool } := by
  have hfind : { d with pool := pool }.pending? task = some p := h
  simp only [observe, hfind]
  rfl

namespace Sound

theorem started {task worker : Nat} {rest : List Event}
    (h : d.Sound options lossy files issued waiting givenUp log)
    (hevents : d.pool.events = .started task worker :: rest) :
    ({ d with pool := { d.pool with events := rest } }.observe (.started task worker)).Sound
      options lossy files issued waiting givenUp log := by
  have hmap {β : Type} (f : Pending → β) (hf : ∀ p : Pending, ∀ w, f { p with worker := w } = f p) :
      (({ d with pool := { d.pool with events := rest } }.observe
        (.started task worker)).pending).map f = d.pending.map f := by
    simp only [observe, List.map_map]
    apply List.map_congr_left
    intro p _
    by_cases htask : p.task = task
    · subst htask
      simp [hf]
    · simp [htask]
  constructor
  · exact h.ready.tail_events hevents
  · exact h.tally
  · rw [hmap (·.index) (fun _ _ => rfl)]
    exact h.indices
  · exact h.logged
  · intro q hq
    obtain ⟨p, hp, htask, hindex, hpath, _⟩ := mem_pending_started hq
    rw [htask, hindex, hpath]
    exact h.asked p hp
  · exact h.ahead
  · rw [hmap (·.task) (fun _ _ => rfl)]
    exact h.tasks
  · intro q hq hworker
    obtain ⟨p, hp, htask, _, _, hnone⟩ := mem_pending_started hq
    obtain ⟨hworker, hne⟩ := hnone hworker
    rw [htask]
    apply (h.announced p hp hworker).tail_events hevents
    intro w heq
    cases heq
    contradiction
  · intro hlossy q hq
    obtain ⟨p, hp, htask, _⟩ := mem_pending_started hq
    rw [htask]
    exact (h.held hlossy p hp).tail_events hevents (by simp)

theorem finished {task worker : Nat} {rest : List Event} (hissued : Issued options nextTask issued)
    (h : d.Sound options lossy files issued waiting givenUp log)
    (hevents : d.pool.events = .finished task worker result :: rest) :
    ∃ log', ({ d with pool := { d.pool with events := rest } }.observe
      (.finished task worker result)).Sound options lossy files issued waiting givenUp log' := by
  have hready := h.ready.tail_events hevents
  have hannounced (q : Pending) (ha : d.pool.Announced q.task) :
      Pool.Announced { d.pool with events := rest } q.task :=
    ha.tail_events hevents (by simp)
  have hheld (q : Pending) (hne : q.task ≠ task) (hh : d.pool.Holds q.task) :
      Pool.Holds { d.pool with events := rest } q.task :=
    hh.tail_events hevents (by simp [hne.symm])
  cases hfind : d.pending? task with
  | none =>
      have hother : ∀ q ∈ d.pending, q.task ≠ task := by
        simpa [pending?] using hfind
      refine ⟨log, ?_⟩
      rw [observe_of_none hfind]
      exact h.change_pool hready (fun q _ => hannounced q) (fun q hq => hheld q (hother q hq))
  | some p =>
      obtain ⟨hmem, rfl⟩ := mem_of_pending? hfind
      obtain ⟨asked, hasked, htask, hresult⟩ :=
        h.ready.carries.finished p.task worker result (hevents ▸ List.mem_cons_self)
      obtain ⟨request, hrequest, htask', hpath, hfile⟩ := h.asked p hmem
      obtain rfl := hissued.eq_of_task_eq hasked hrequest (htask.trans htask'.symm)
      refine ⟨log ++ [(p.index, result)], forget (p := p) ?_⟩
      have houtcome : ∀ file, files[p.index]? = some file → file.path = p.path →
          result.Outcome options lossy file := by
        intro file hfile' _
        obtain rfl : asked.file = file := by simpa [hfile] using hfile'
        rw [hresult, hissued.options asked hasked]
        exact .parsed
      rw [observe_of_some hfind]
      exact h.settle hmem houtcome hready (fun q _ _ => hannounced q) (fun q _ => hheld q)

/-- Unless workers may be lost, they have not all stopped. -/
theorem not_isDead (h : d.Sound options false files issued waiting givenUp log) :
    d.pool.isDead = false := by
  obtain ⟨hloyal, hactive⟩ := h.ready.loyal rfl
  obtain ⟨w, hmem, hcounts, hstopped⟩ := hloyal.exists_alive h.ready.sound hactive
  exact Pool.not_isDead_of_alive h.ready.sound hmem hcounts hstopped

theorem abandoned (h : d.Sound options lossy files issued waiting givenUp log)
    (hdead : d.pool.isDead = true) :
    ∃ log', d.abandon.Sound options lossy files issued waiting
      (givenUp ++ d.givesUp .abandon) log' := by
  cases lossy with
  | false =>
      rw [h.not_isDead] at hdead
      contradiction
  | true =>
      have hperm : (d.pending.mergeSort fun a b => a.index ≤ b.index).Perm d.pending :=
        List.mergeSort_perm _ _
      refine ⟨_, h.loseAll (fun p hp => hperm.mem_iff.mp hp) ?_⟩
      exact ((hperm.map (·.task)).nodup_iff).mpr h.nodup_pending

/-- Every move keeps what holds of a dispatch. -/
theorem goes {given : List Nat} (hissued : Issued options nextTask issued)
    (h : d.Sound options lossy files issued waiting givenUp log)
    (hgoes : d.Goes options.timeout given next) :
    ∃ log', next.Sound options lossy files issued waiting (givenUp ++ given) log' := by
  cases hgoes with
  | works hworks =>
      rw [List.append_nil]
      exact ⟨log, h.works hworks⟩
  | @receives event rest hevents =>
      rw [List.append_nil]
      cases event with
      | started task worker => exact ⟨log, h.started hevents⟩
      | finished task worker result => exact h.finished hissued hevents
  | @expires time worker p hlimit hmem _ =>
      refine ⟨_, h.settle hmem (fun file _ hpath => hpath ▸ .timedOut hlimit)
        (h.ready.replace worker) (fun q _ _ ha => ha.replace worker)
        (fun q _ _ hh => hh.replace worker)⟩
  | abandons hdead => exact h.abandoned hdead

/-- Handing out requests opens them. -/
theorem submitAll {requests rest : List (Nat × Request)}
    (h : d.Sound options lossy files issued (requests ++ rest) givenUp log) :
    (d.submitAll requests).Sound options lossy files issued rest givenUp log := by
  induction requests generalizing d with
  | nil => exact h
  | cons entry requests ih =>
      obtain ⟨hissued, hfile⟩ := h.ahead entry List.mem_cons_self
      apply ih
      constructor
      · exact h.ready.submit hissued
      · exact h.tally
      · simpa using h.indices
      · exact h.logged
      · intro p hp
        rcases List.mem_append.mp hp with hp | hp
        · exact h.asked p hp
        · rw [List.mem_singleton.mp hp]
          exact ⟨entry.2, hissued, rfl, rfl, hfile⟩
      · exact fun other hother => h.ahead other (List.mem_cons_of_mem entry hother)
      · simpa using h.tasks
      · intro p hp hworker
        rcases List.mem_append.mp hp with hp | hp
        · exact (h.announced p hp hworker).submit entry.2
        · rw [List.mem_singleton.mp hp]
          exact Pool.announced_submit entry.2
      · intro hlossy p hp
        rcases List.mem_append.mp hp with hp | hp
        · exact (h.held hlossy p hp).submit entry.2
        · rw [List.mem_singleton.mp hp]
          exact Pool.holds_submit entry.2

/-- Once nothing is open or waiting, the tally is complete. -/
theorem complete (h : d.Sound options lossy files issued [] givenUp log) (hpending : d.pending = []) :
    ∃ results, d.tally.Complete (fun file result => result.Outcome options lossy file) files
      results := by
  have hindices := h.indices
  rw [hpending, List.map_nil, List.map_nil, List.append_nil, List.append_nil] at hindices
  rw [h.tally]
  apply Tally.complete_recordAll hindices
  intro entry hentry
  obtain ⟨file, hfile, houtcome⟩ := h.logged entry hentry
  exact ⟨file, hfile, houtcome, houtcome.path_eq⟩

end Sound

/-! ## A dispatch is never stuck -/

theorem exists_step_receive (limit : Option Nat) (h : d.pool.events ≠ []) :
    ∃ next, d.step? limit .receive = some next := by
  obtain ⟨event, rest, hevents⟩ := List.exists_cons_of_ne_nil h
  simp [step?, receive?, hevents]

namespace Sound

theorem exists_step_expire (time : Nat) {worker : Nat}
    (h : d.Sound options lossy files issued waiting givenUp log) (hmem : p ∈ d.pending)
    (hworker : p.worker = some worker) : ∃ next, d.step? (some time) (.expire p.task) = some next := by
  cases hfind : d.pending? p.task with
  | none =>
      rw [pending?, List.find?_eq_none] at hfind
      simpa using hfind p hmem
  | some found =>
      obtain ⟨hfound, htask⟩ := mem_of_pending? hfind
      obtain rfl := List.inj_on_of_nodup_map h.nodup_pending hfound hmem htask
      simp [step?, expire?, hfind, hworker]

/-- Unless workers may be lost, one of them can go on if no event is there to be read. -/
theorem exists_ready_worker (h : d.Sound options false files issued waiting givenUp log)
    (hpending : d.pending ≠ []) (hevents : d.pool.events = []) :
    ∃ w ∈ d.pool.workers, w.phase ≠ .stopped ∧ (w.phase = .waiting → d.pool.queue ≠ []) := by
  obtain ⟨p, rest, hcons⟩ := List.exists_cons_of_ne_nil hpending
  have hmem : p ∈ d.pending := hcons ▸ List.mem_cons_self
  rcases h.held rfl p hmem with ⟨r, hr, _⟩ | ⟨w, hw, r, hphase, _⟩ | ⟨w, result, hw⟩
  · obtain ⟨hloyal, hactive⟩ := h.ready.loyal rfl
    obtain ⟨w, hw, _, hstopped⟩ := hloyal.exists_alive h.ready.sound hactive
    exact ⟨w, hw, hstopped, fun _ => List.ne_nil_of_mem hr⟩
  · exact ⟨w, hw, by simp [hphase], by simp [hphase]⟩
  · simp [hevents] at hw

end Sound
end Dispatch
end SceneLang
