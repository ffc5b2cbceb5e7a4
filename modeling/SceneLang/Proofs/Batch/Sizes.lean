import SceneLang.Proofs.Batch.Runs

/-!
# How many workers count

A worker that is given up is taken off the list of those that count, and another one is put on it.
A worker can be given up twice, though: it answers a request, reads its flag and takes a second
request before the first one is given up, and then the second one is given up as well.  By that
time it is off the list, and still another worker is started.  So the list grows by one for each
request that is given up without taking a worker off it.
-/

namespace SceneLang
namespace Pool

variable {pool next : Pool} {count given worker : Nat}

theorem active_replace (h : worker ∈ pool.active) :
    (pool.replace worker).active = pool.active.erase worker ++ [pool.nextId] ∧
      (pool.replace worker).retired = worker :: pool.retired := by
  simp [replace, h, spawn]

theorem active_replace_of_not_mem (h : worker ∉ pool.active) :
    (pool.replace worker).active = pool.active ++ [pool.nextId] ∧
      (pool.replace worker).retired = pool.retired := by
  simp [replace, h, spawn]

theorem Works.retired_eq (h : pool.Works next) : next.retired = pool.retired := by
  obtain ⟨worker, htake | hanswer | hcheck⟩ := h
  · obtain ⟨request, rest, _, _, rfl⟩ := take?_eq_some_iff.mp htake
    rfl
  · obtain ⟨request, _, rfl⟩ := answer?_eq_some_iff.mp hanswer
    rfl
  · obtain ⟨_, rfl⟩ := check?_eq_some_iff.mp hcheck
    rfl

/-- The workers of a pool that was started with `count` of them, once requests have been given
up: every one of these has brought a new worker, and those that were taken off the list are
different ones. -/
structure Staffed (count given : Nat) (pool : Pool) : Prop where
  balance : pool.active.length + pool.retired.length = count + given
  bound : pool.retired.length ≤ given
  once : pool.retired.Nodup

theorem staffed_start (count : Nat) : (start count).Staffed count 0 := by
  have hlists : (start count).active.length = count ∧ (start count).retired = [] := by
    induction count with
    | zero => exact ⟨rfl, rfl⟩
    | succ count ih =>
        refine ⟨?_, ih.2⟩
        rw [start, spawn, List.length_append, ih.1, List.length_singleton]
  constructor <;> simp [hlists]

theorem Staffed.of_lists (h : pool.Staffed count given) (hactive : next.active = pool.active)
    (hretired : next.retired = pool.retired) : next.Staffed count given where
  balance := by
    rw [hactive, hretired]
    exact h.balance
  bound := by
    rw [hretired]
    exact h.bound
  once := by
    rw [hretired]
    exact h.once

theorem Staffed.works (h : pool.Staffed count given) (hworks : pool.Works next) :
    next.Staffed count given :=
  h.of_lists hworks.active_eq hworks.retired_eq

theorem Staffed.replace (h : pool.Staffed count given) (hsound : pool.Sound) (worker : Nat) :
    (pool.replace worker).Staffed count (given + 1) := by
  have hbalance := h.balance
  have hbound := h.bound
  by_cases hmem : worker ∈ pool.active
  · obtain ⟨hactive, hretired⟩ := active_replace hmem
    have hpos := List.length_pos_of_mem hmem
    have hnew : worker ∉ pool.retired := fun hold => (hsound.retired worker hold).2 hmem
    constructor
    · rw [hactive, hretired, List.length_append, List.length_erase_of_mem hmem,
        List.length_singleton, List.length_cons]
      omega
    · rw [hretired, List.length_cons]
      omega
    · rw [hretired]
      exact h.once.cons hnew
  · obtain ⟨hactive, hretired⟩ := active_replace_of_not_mem hmem
    constructor
    · rw [hactive, hretired, List.length_append, List.length_singleton]
      omega
    · rw [hretired]
      omega
    · rw [hretired]
      exact h.once

end Pool

namespace Dispatch

variable {d next : Dispatch} {limit : Option Nat} {count before : Nat}

theorem lists_submitAll (requests : List (Nat × Request)) (d : Dispatch) :
    (d.submitAll requests).pool.active = d.pool.active ∧
      (d.submitAll requests).pool.retired = d.pool.retired := by
  induction requests generalizing d with
  | nil => exact ⟨rfl, rfl⟩
  | cons entry rest ih => exact ih _

/-- One move: each request that it gives up is one more that brought a worker. -/
theorem staffed_of_goes {given : List Nat} (h : d.pool.Staffed count before)
    (hsound : d.pool.Sound) (halive : d.pool.isDead = false) (hgoes : d.Goes limit given next) :
    next.pool.Staffed count (before + given.length) := by
  cases hgoes with
  | works hworks => exact h.works hworks
  | receives _ =>
      rw [pool_observe]
      exact h.of_lists rfl rfl
  | @expires _ worker _ _ _ _ => exact h.replace hsound worker
  | abandons hdead =>
      rw [halive] at hdead
      contradiction

end Dispatch

namespace Desk

variable {options : BatchOptions} {desk next : Desk} {pool : Pool}

/-- Before the first call there is no pool, and nothing has been given up. -/
def Staffed (desk : Desk) : Prop :=
  match desk.pool? with
  | some pool => pool.Staffed desk.parser.options.workers desk.givenUp.length
  | none => desk.parser.closed = false → desk.givenUp = []

theorem Staffed.of_pool (h : desk.Staffed) (hpool : desk.pool? = some pool) :
    pool.Staffed desk.parser.options.workers desk.givenUp.length := by
  simpa only [Staffed, hpool] using h

theorem Staffed.of_call {call : Call} (h : desk.Staffed) (hcall : desk.call = some call) :
    call.dispatch.pool.Staffed desk.parser.options.workers desk.givenUp.length :=
  h.of_pool (by simp only [pool?, hcall])

theorem Staffed.enter (h : desk.Staffed) (files : List SourceFile) (hcall : desk.call = none)
    (hclosed : desk.parser.closed = false) : (desk.enter files).Staffed := by
  change (desk.parser.pool.getD (.start desk.parser.options.workers)).Staffed
    desk.parser.options.workers desk.givenUp.length
  have hpool : desk.pool? = desk.parser.pool := by simp only [pool?, hcall]
  cases hsome : desk.parser.pool with
  | some pool => exact h.of_pool (hpool.trans hsome)
  | none =>
      have hnone := hpool.trans hsome
      simp only [Staffed, hnone] at h
      rw [h hclosed]
      exact Pool.staffed_start _

theorem Staffed.setPool (h : desk.Staffed) (hpool : desk.pool? = some pool) (next : Pool)
    (hkeeps : ∀ count given, pool.Staffed count given → next.Staffed count given) :
    (desk.setPool next).Staffed := by
  have hnext := hkeeps _ _ (h.of_pool hpool)
  cases hcall : desk.call with
  | some call =>
      rw [setPool_of_call hcall]
      exact hnext
  | none =>
      simp only [Desk.setPool, hcall]
      simpa only [Staffed, pool?] using hnext

theorem Staffed.step (h : desk.Staffed) (hsound : desk.Sound options false)
    (hstep : desk.Step false next) : next.Staffed := by
  cases hstep with
  | enter files hcall hclosed _ => exact h.enter files hcall hclosed
  | alone files hcall _ _ =>
      simpa only [Staffed, answerAlone, pool?, hcall] using h
  | @handOut call hcall _ _ =>
      have hpool := h.of_call hcall
      have hlists := call.dispatch.lists_submitAll
        (call.waiting.take desk.parser.options.effectiveBatchSize)
      exact hpool.of_lists hlists.1 hlists.2
  | @move call d move hcall _ hmove =>
      obtain ⟨_, _, _, _, hdispatch⟩ := hsound.of_call hcall
      have hpool := h.of_call hcall
      have hnext := Dispatch.staffed_of_goes hpool hdispatch.ready.sound hdispatch.not_isDead
        (Dispatch.goes_of_step? hmove)
      simpa only [Staffed, pool?, List.length_append] using hnext
  | @work pool next hpool hworks =>
      exact h.setPool hpool next fun _ _ hstaffed => hstaffed.works hworks
  | lose hlossy => contradiction
  | @leave call hcall _ _ =>
      exact h.of_call hcall
  | shutDown hcall =>
      simp only [Staffed, pool?, hcall, BatchParser.shutDown]
      intro hclosed
      contradiction

theorem staffed_of_reaches (hreaches : Reaches false (start options) desk) : desk.Staffed := by
  induction hreaches with
  | refl => exact fun _ => rfl
  | tail hbefore hstep ih => exact ih.step ((sound_start options false).reaches hbefore) hstep

theorem Sound.sound_of_pool {lossy : Bool} (h : desk.Sound options lossy)
    (hpool : desk.pool? = some pool) : pool.Sound := by
  cases hcall : desk.call with
  | some call =>
      obtain ⟨_, _, _, _, hdispatch⟩ := h.of_call hcall
      simp only [pool?, hcall, Option.some.injEq] at hpool
      rw [← hpool]
      exact hdispatch.ready.sound
  | none =>
      obtain ⟨_, _, _, hsettled⟩ := h.state
      simp only [Settled, hcall] at hsettled
      simp only [pool?, hcall] at hpool
      exact (hsettled.2 pool hpool).sound

end Desk

/-- Whatever the order in which workers and the one who collects make their moves, as long as no
worker is lost: the workers that count are at least as many as at the start, and with those that
have been replaced they are as many as at the start and the requests given up together.  They are
exactly as many as at the start if and only if every request that was given up took a worker off
the list. -/
theorem Desk.workers_that_count (options : BatchOptions) (desk : Desk) (pool : Pool)
    (hreaches : Reaches false (start options) desk) (hpool : desk.pool? = some pool) :
    pool.active.length + pool.retired.length = options.workers + desk.givenUp.length ∧
    options.workers ≤ pool.active.length ∧
    pool.active.Nodup ∧ pool.retired.Nodup ∧ pool.active.Disjoint pool.retired ∧
    (pool.active.length = options.workers ↔ pool.retired.length = desk.givenUp.length) := by
  have hdesk := (sound_start options false).reaches hreaches
  have hsound := hdesk.sound_of_pool hpool
  obtain ⟨hbalance, hbound, honce⟩ := (staffed_of_reaches hreaches).of_pool hpool
  rw [hdesk.configured] at hbalance
  refine ⟨hbalance, by omega, hsound.once, honce, ?_, by omega⟩
  intro worker hactive hretired
  exact (hsound.retired worker hretired).2 hactive

theorem BatchParser.requests_pair (parser : BatchParser) (first second : SourceFile)
    (h : second.size ≤ first.size) :
    parser.requests [first, second] = [(0, ⟨parser.nextTask, parser.options.parser, first⟩),
      (1, ⟨parser.nextTask + 1, parser.options.parser, second⟩)] := by
  have hordered : ([first, second].zipIdx.mergeSort fun a b => b.1.size ≤ a.1.size) =
      [(first, 0), (second, 1)] := by
    apply List.mergeSort_of_pairwise
    simp [List.zipIdx, h]
  simp only [requests, hordered]
  rfl

/-- One worker, two files: before the first one is given up, the worker has answered it, has read
its flag and has taken the second one, which is given up as well. -/
theorem Desk.exists_replaced_twice :
    ∃ desk pool, Reaches false (start { BatchOptions.default 1 with timeout := some 5 }) desk ∧
      desk.pool? = some pool ∧ pool.active = [1, 2] ∧ pool.retired = [0] ∧
        desk.givenUp = [0, 1] := by
  let options : BatchOptions := { BatchOptions.default 1 with timeout := some 5 }
  let first : SourceFile := ⟨"a.holo", []⟩
  let second : SourceFile := ⟨"b.holo", []⟩
  have hcall : Reaches false (start options) _ :=
    .single (.enter [first, second] rfl rfl (by decide))
  rw [enter, BatchParser.requests_pair _ first second (Nat.le_refl _)] at hcall
  have htaken := ((hcall.tail (.handOut rfl rfl (List.cons_ne_nil _ _))).tail
    (.move (.take 0) rfl (List.cons_ne_nil _ _) rfl)).tail
    (.move .receive rfl (List.cons_ne_nil _ _) rfl)
  -- the worker goes on with the second file while its answer waits to be read
  have hgoesOn := ((htaken.tail (.move (.answer 0) rfl (List.cons_ne_nil _ _) rfl)).tail
    (.move (.check 0) rfl (List.cons_ne_nil _ _) rfl)).tail
    (.move (.take 0) rfl (List.cons_ne_nil _ _) rfl)
  have honce := hgoesOn.tail (.move (.expire 0) rfl (List.cons_ne_nil _ _) rfl)
  have htwice := ((honce.tail (.move .receive rfl (List.cons_ne_nil _ _) rfl)).tail
    (.move .receive rfl (List.cons_ne_nil _ _) rfl)).tail
    (.move (.expire 1) rfl (List.cons_ne_nil _ _) rfl)
  exact ⟨_, _, htwice, rfl, rfl, rfl, rfl⟩

theorem Desk.workers_that_count_replaced_twice :
    ∃ desk pool, Reaches false (start { BatchOptions.default 1 with timeout := some 5 }) desk ∧
      desk.pool? = some pool ∧ desk.givenUp.length = 2 ∧ pool.retired.length = 1 ∧
        pool.active.length = 2 := by
  obtain ⟨desk, pool, hreaches, hpool, _, hretired, hgivenUp⟩ := exists_replaced_twice
  obtain ⟨hbalance, _⟩ := workers_that_count _ desk pool hreaches hpool
  rw [hretired, hgivenUp] at hbalance
  exact ⟨desk, pool, hreaches, hpool, by rw [hgivenUp]; rfl, by rw [hretired]; rfl,
    Nat.add_right_cancel hbalance⟩

/-- The list does not keep its length. -/
theorem Desk.not_workers_that_count_fixed :
    ¬ ∀ (options : BatchOptions) (desk : Desk) (pool : Pool), options.workers ≠ 0 →
      Reaches false (start options) desk → desk.pool? = some pool →
        pool.active.length = options.workers := by
  intro hfixed
  obtain ⟨desk, pool, hreaches, hpool, hactive, _, _⟩ := exists_replaced_twice
  have hlength := hfixed _ desk pool (by decide) hreaches hpool
  rw [hactive] at hlength
  exact absurd hlength (by decide)

end SceneLang
