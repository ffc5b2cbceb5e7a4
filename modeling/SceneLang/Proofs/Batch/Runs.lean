import SceneLang.Proofs.Batch.Desks

/-!
# The run that is made

Parsing a batch makes its moves in one fixed order.  This is one of the ways in which a desk can
answer a call, so that what holds of every way holds of it.
-/

namespace SceneLang
namespace Dispatch

variable {options : BatchOptions} {files : List SourceFile} {issued : List Request}
  {waiting : List (Nat × Request)} {givenUp : List Nat} {log : List (Nat × TaskResult)}
  {d : Dispatch} {limit : Option Nat}

theorem exists_step_of_workerMove? (limit : Option Nat) {w : Worker} {move : Move} (hids : d.pool.ids.Nodup)
    (hw : w ∈ d.pool.workers) (h : d.workerMove? w = some move) :
    ∃ next, d.step? limit move = some next := by
  have hphase := Pool.phase?_of_mem hids hw
  simp only [workerMove?] at h
  split at h
  next request hrunning =>
    cases h
    simp [step?, Pool.answer?, hphase, hrunning]
  next hanswered =>
    cases h
    simp [step?, Pool.check?, hphase, hanswered]
  next hwaiting =>
    split at h
    next => contradiction
    next hqueue =>
      cases h
      obtain ⟨request, rest, hcons⟩ := List.exists_cons_of_ne_nil (by simpa using hqueue)
      simp [step?, Pool.take?, hphase, hwaiting, hcons]
  next => contradiction

theorem exists_workerMove? {w : Worker} (hstopped : w.phase ≠ .stopped)
    (hqueue : w.phase = .waiting → d.pool.queue ≠ []) : ∃ move, d.workerMove? w = some move := by
  cases hphase : w.phase with
  | waiting => simp [workerMove?, hphase, hqueue hphase]
  | running request => simp [workerMove?, hphase]
  | answered => simp [workerMove?, hphase]
  | stopped => contradiction

/-- The next move can be made, as long as requests are open. -/
theorem Sound.exists_nextMove? (limit : Option Nat) (h : d.Sound options false files issued waiting givenUp log)
    (hpending : d.pending ≠ []) :
    ∃ move next, d.nextMove? limit = some move ∧ d.step? limit move = some next := by
  have hopen : d.pending.isEmpty = false := by simpa using hpending
  cases hoverdue : d.overdue? limit with
  | some task =>
      rw [overdue?] at hoverdue
      split at hoverdue
      next hlimit =>
        obtain ⟨p, hfind, rfl⟩ := Option.map_eq_some_iff.mp hoverdue
        have hworker := List.find?_some hfind
        obtain ⟨worker, hworker⟩ := Option.isSome_iff_exists.mp hworker
        obtain ⟨next, hstep⟩ := h.exists_step_expire 0 (List.mem_of_find?_eq_some hfind) hworker
        rw [← hlimit] at hstep
        exact ⟨.expire p.task, next, by simp [nextMove?, hopen, overdue?, hlimit, hfind], hstep⟩
      next => contradiction
  | none =>
      by_cases hevents : d.pool.events = []
      · obtain ⟨w, hw, hstopped, hqueue⟩ := h.exists_ready_worker hpending hevents
        cases hfirst : d.pool.workers.findSome? d.workerMove? with
        | none =>
            obtain ⟨move, hmove⟩ := exists_workerMove? hstopped hqueue
            rw [List.findSome?_eq_none_iff] at hfirst
            simp [hfirst w hw] at hmove
        | some move =>
            obtain ⟨w', hw', hmove⟩ := List.exists_of_findSome?_eq_some hfirst
            obtain ⟨next, hstep⟩ := exists_step_of_workerMove? limit h.ready.sound.ids hw' hmove
            refine ⟨move, next, ?_, hstep⟩
            simp [nextMove?, hopen, hoverdue, hevents, h.not_isDead, hfirst]
      · obtain ⟨next, hstep⟩ := exists_step_receive limit hevents
        exact ⟨.receive, next, by simp [nextMove?, hopen, hoverdue, hevents], hstep⟩

end Dispatch

namespace Desk

variable {options : BatchOptions} {desk : Desk} {call : Call}

theorem reaches_self_of_call (hcall : desk.call = some call) :
    ∃ given, Reaches false desk { desk with
      call := some call
      givenUp := desk.givenUp ++ given } := by
  refine ⟨[], ?_⟩
  rw [← hcall, List.append_nil]
  exact .refl

/-- A run ends with nothing open, and a desk can come to its end. -/
theorem Sound.reaches_runFor {fuel : Nat} (h : desk.Sound options false)
    (hcall : desk.call = some call) (hfuel : call.dispatch.effort 0 ≤ fuel) :
    (Dispatch.runFor options.timeout fuel call.dispatch).pending = [] ∧
      ∃ given, Reaches false desk { desk with
        call := some { call with dispatch := .runFor options.timeout fuel call.dispatch }
        givenUp := desk.givenUp ++ given } := by
  induction fuel generalizing desk call with
  | zero =>
      have hpending : call.dispatch.pending = [] := by
        rw [← List.length_eq_zero_iff]
        simp only [Dispatch.effort] at hfuel
        omega
      exact ⟨hpending, reaches_self_of_call hcall⟩
  | succ fuel ih =>
      by_cases hpending : call.dispatch.pending = []
      · have hstay : Dispatch.runFor options.timeout (fuel + 1) call.dispatch = call.dispatch := by
          simp [Dispatch.runFor, Dispatch.nextMove?, hpending]
        rw [hstay]
        exact ⟨hpending, reaches_self_of_call hcall⟩
      · obtain ⟨issued, log, hissued, hlt, hdispatch⟩ := h.of_call hcall
        obtain ⟨move, d, hnext, hstep⟩ :=
          hdispatch.exists_nextMove? options.timeout hpending
        have hless := Dispatch.effort_goes 0 hdispatch.ready.sound.ids hpending
          (Dispatch.goes_of_step? hstep)
        have hrun : Dispatch.runFor options.timeout (fuel + 1) call.dispatch =
            .runFor options.timeout fuel d := by
          simp [Dispatch.runFor, hnext, hstep]
        rw [← h.configured] at hstep
        obtain ⟨hsettled, given, hreaches⟩ := ih (h.move hcall hstep)
          rfl (Nat.le_of_lt_succ (hless.trans_le hfuel))
        rw [hrun]
        refine ⟨hsettled, call.dispatch.givesUp move ++ given, ?_⟩
        rw [← List.append_assoc]
        exact .head (.move move hcall hpending hstep) hreaches

/-- Batch after batch a desk can come to where all files have been handed out and answered. -/
theorem Sound.reaches_concurrently {waiting : List (Nat × Request)} {pool : Pool} {tally : Tally}
    (h : desk.Sound options false) (hcall : desk.call = some call) (hwaiting : call.waiting = waiting)
    (hdispatch : call.dispatch = ⟨pool, [], tally⟩) :
    ∃ given, Reaches false desk { desk with
      call := some ⟨call.files, [],
        ⟨(BatchParser.concurrently options pool waiting tally).1, [],
          (BatchParser.concurrently options pool waiting tally).2⟩⟩
      givenUp := desk.givenUp ++ given } := by
  induction hlength : waiting.length using Nat.strong_induction_on
    generalizing desk call waiting pool tally with
  | _ count ih =>
    rw [BatchParser.concurrently]
    by_cases hempty : waiting = []
    · obtain ⟨given, hreaches⟩ := reaches_self_of_call hcall
      have hsame : call = ⟨call.files, [], ⟨pool, [], tally⟩⟩ := by
        rw [← hempty, ← hwaiting, ← hdispatch]
      rw [hsame] at hreaches
      simpa [hempty] using ⟨given, hreaches⟩
    · have hsome : waiting.isEmpty = false := by simpa using hempty
      have hpending : call.dispatch.pending = [] := by rw [hdispatch]
      have hstep : desk.Step false { desk with call := some (call.handOut options) } := by
        rw [← h.configured]
        exact .handOut hcall hpending (by rwa [hwaiting])
      have hsound := h.step hstep
      obtain ⟨hsettled, given, hrun⟩ := hsound.reaches_runFor rfl (Nat.le_refl _)
      have hnext := hsound.reaches hrun
      set d := Dispatch.runFor options.timeout ((call.handOut options).dispatch.effort 0)
        (call.handOut options).dispatch with hd
      have hless : (waiting.drop options.effectiveBatchSize).length < count := by
        have hsize : 1 ≤ options.effectiveBatchSize := Nat.le_max_right _ _
        have hpos := List.length_pos_of_ne_nil hempty
        rw [List.length_drop]
        omega
      have hsame : d = ⟨d.pool, [], d.tally⟩ := by rw [← hsettled]
      obtain ⟨given', hrest⟩ := ih _ hless hnext
        rfl (by simp [Call.handOut, hwaiting]) hsame rfl
      have hrun' : (Dispatch.submitAll ⟨pool, [], tally⟩
          (waiting.take options.effectiveBatchSize)).run options.timeout = d := by
        rw [Dispatch.run, Dispatch.work_eq_effort, hd, Call.handOut, hdispatch, hwaiting]
      refine ⟨given ++ given', ?_⟩
      simp only [hsome, hrun']
      rw [← List.append_assoc]
      exact .head hstep (hrun.trans hrest)

theorem parse_eq_answerAlone (files : List SourceFile) (hclosed : desk.parser.closed = false)
    (hworkers : desk.parser.options.workers = 0) :
    ∃ answer, (desk.parser.parse files).1 = .ok (answer.result, answer.progress) ∧
      answer.files = files ∧
      desk.answerAlone files = { desk with
        parser := (desk.parser.parse files).2
        answered := desk.answered ++ [answer] } := by
  refine ⟨.ofTally desk.parser.options files
    (BatchParser.sequentially (desk.parser.requests files) (.start files.length)), ?_, rfl, ?_⟩
  · simp [BatchParser.parse, hclosed, hworkers, Answer.ofTally]
  · simp [BatchParser.parse, hclosed, hworkers, answerAlone]

/-- Parsing a batch is one way of answering a call. -/
theorem Sound.reaches_parse (h : desk.Sound options false) (hcall : desk.call = none)
    (hclosed : desk.parser.closed = false) (files : List SourceFile) :
    ∃ answer given, (desk.parser.parse files).1 = .ok (answer.result, answer.progress) ∧
      answer.files = files ∧
      Reaches false desk ⟨(desk.parser.parse files).2, none, desk.answered ++ [answer],
        desk.givenUp ++ given⟩ := by
  by_cases hworkers : desk.parser.options.workers = 0
  · obtain ⟨answer, hresult, hfiles, heq⟩ := parse_eq_answerAlone files hclosed hworkers
    have hstep : desk.Step false (desk.answerAlone files) := .alone files hcall hclosed hworkers
    rw [heq, hcall] at hstep
    refine ⟨answer, [], hresult, hfiles, .single ?_⟩
    rwa [List.append_nil]
  · have henter : desk.Step false (desk.enter files) := .enter files hcall hclosed hworkers
    obtain ⟨given, hreaches⟩ := (h.step henter).reaches_concurrently rfl rfl rfl
    rw [← h.configured] at hreaches
    have hleave := hreaches.tail (.leave rfl rfl rfl)
    refine ⟨.ofTally desk.parser.options files (BatchParser.concurrently desk.parser.options
      (desk.parser.pool.getD (.start desk.parser.options.workers)) (desk.parser.requests files)
      (.start files.length)).2, given, ?_, rfl, ?_⟩
    · simp [BatchParser.parse, hclosed, hworkers, Answer.ofTally]
    · have hparser : (desk.parser.parse files).2 = { desk.parser with
          pool := some (BatchParser.concurrently desk.parser.options
            (desk.parser.pool.getD (.start desk.parser.options.workers))
            (desk.parser.requests files) (.start files.length)).1
          nextTask := desk.parser.nextTask + files.length } := by
        simp [BatchParser.parse, hclosed, hworkers]
      rw [hparser]
      exact .head henter hleave

end Desk
end SceneLang

namespace SceneLang

/-! ## What calls answer

Whatever the order in which workers and the one who collects make their moves, each file has one
result and one row of the progress.  Without a limit of time, and if no worker is lost, the answer
is the one that parsing one file after another gives.
-/

variable {options : BatchOptions} {files : List SourceFile}

theorem eq_map_of_forall₂ {f : SourceFile → TaskResult} {results : List TaskResult}
    (h : List.Forall₂ (fun file result => result = f file) files results) :
    results = files.map f := by
  have hmap : List.Forall₂ (· = ·) (files.map f) results := by
    rw [List.forall₂_map_left_iff]
    exact h.imp fun _ _ heq => heq.symm
  rw [List.forall₂_eq_eq_eq] at hmap
  exact hmap.symm

/-- Without workers, files are parsed one after another. -/
theorem BatchParser.parse_without_workers :
    ∃ progress, ((new { options with workers := 0 }).parse files).1 =
      .ok (.ofResults (files.map (·.parse options.parser)), progress) := by
  obtain ⟨results, hcomplete⟩ := (new { options with workers := 0 }).complete_sequentially files rfl
  have hresults : results = files.map (·.parse options.parser) :=
    eq_map_of_forall₂ hcomplete.outcomes
  rw [← hresults, ← hcomplete.results_eq]
  exact ⟨_, rfl⟩

namespace Desk

variable {lossy : Bool} {desk next : Desk}

end Desk

end SceneLang
