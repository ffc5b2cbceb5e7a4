import Mathlib.Data.List.Nodup
import SceneLang.Batch.Dispatch

/-!
# What workers do to a pool

A worker takes a request, answers it, or reads its flag.  None of this loses a request: as long
as no worker is lost, a request that has been handed out is in the queue, with a worker, or
among the events as an answer.  And it comes to an end, since each of these moves leaves less to
be done.
-/

namespace SceneLang
namespace Pool

variable {pool next : Pool} {worker : Nat} {phase old : Phase} {task : Nat}

/-! ## Phases -/

/-- The numbers of the workers, replaced and lost ones included. -/
def ids (pool : Pool) : List Nat := pool.workers.map (·.id)

theorem ids_setPhase : (pool.setPhase worker phase).map (·.id) = pool.ids := by
  rw [setPhase, ids, List.map_map]
  apply List.map_congr_left
  intro w _
  by_cases h : w.id = worker <;> simp [h]

theorem mem_of_phase? (h : pool.phase? worker = some phase) : ⟨worker, phase⟩ ∈ pool.workers := by
  rw [phase?, Option.map_eq_some_iff] at h
  obtain ⟨w, hfind, hphase⟩ := h
  have hid : w.id = worker := by simpa using List.find?_some hfind
  have hmem := List.mem_of_find?_eq_some hfind
  rwa [← hid, ← hphase]

theorem phase?_of_mem (hnodup : pool.ids.Nodup) {w : Worker} (hmem : w ∈ pool.workers) :
    pool.phase? w.id = some w.phase := by
  cases hfind : pool.workers.find? (·.id = w.id) with
  | none => simpa using List.find?_eq_none.mp hfind w hmem
  | some found =>
      have hid : found.id = w.id := by simpa using List.find?_some hfind
      have hsame := List.inj_on_of_nodup_map hnodup (List.mem_of_find?_eq_some hfind) hmem hid
      simp [phase?, hfind, hsame]

theorem mem_setPhase {w : Worker} (h : w ∈ pool.setPhase worker phase) :
    w = ⟨worker, phase⟩ ∨ w ∈ pool.workers ∧ w.id ≠ worker := by
  rw [setPhase, List.mem_map] at h
  obtain ⟨before, hmem, rfl⟩ := h
  by_cases hid : before.id = worker
  · left
    simp [hid]
  · right
    simpa [hid] using hmem

theorem mem_setPhase_of_ne {w : Worker} (hmem : w ∈ pool.workers) (hid : w.id ≠ worker) :
    w ∈ pool.setPhase worker phase := by
  rw [setPhase, List.mem_map]
  exact ⟨w, hmem, by simp [hid]⟩

theorem mem_setPhase_self (h : pool.phase? worker = some old) :
    ⟨worker, phase⟩ ∈ pool.setPhase worker phase := by
  rw [setPhase, List.mem_map]
  exact ⟨_, mem_of_phase? h, by simp⟩

/-! ## Moves of workers -/

/-- One of the workers makes a move. -/
def Works (pool next : Pool) : Prop :=
  ∃ worker, pool.take? worker = some next ∨ pool.answer? worker = some next ∨
    pool.check? worker = some next

theorem take?_eq_some_iff : pool.take? worker = some next ↔
    ∃ request rest, pool.phase? worker = some .waiting ∧ pool.queue = request :: rest ∧
      next = { pool with
        queue := rest
        workers := pool.setPhase worker (.running request)
        events := pool.events ++ [.started request.task worker] } := by
  rw [take?]
  split
  next request rest hphase hqueue =>
    constructor
    · intro h
      exact ⟨request, rest, hphase, hqueue, (Option.some.inj h).symm⟩
    · rintro ⟨request', rest', _, hqueue', rfl⟩
      rw [hqueue] at hqueue'
      cases hqueue'
      rfl
  next hnone =>
    constructor
    · intro h
      contradiction
    · rintro ⟨request, rest, hphase, hqueue, rfl⟩
      exact absurd hqueue (hnone request rest hphase)

theorem answer?_eq_some_iff : pool.answer? worker = some next ↔
    ∃ request, pool.phase? worker = some (.running request) ∧
      next = { pool with
        workers := pool.setPhase worker .answered
        events := pool.events ++
          [.finished request.task worker (request.file.parse request.options)] } := by
  rw [answer?]
  split
  next request hphase =>
    constructor
    · intro h
      exact ⟨request, hphase, (Option.some.inj h).symm⟩
    · rintro ⟨request', hphase', rfl⟩
      rw [hphase] at hphase'
      cases hphase'
      rfl
  next hnone =>
    constructor
    · intro h
      contradiction
    · rintro ⟨request, hphase, rfl⟩
      exact absurd hphase (hnone request)

theorem check?_eq_some_iff : pool.check? worker = some next ↔
    pool.phase? worker = some .answered ∧
      next = { pool with
        workers :=
          pool.setPhase worker (if pool.retired.contains worker then .stopped else .waiting) } := by
  rw [check?]
  split
  next hphase =>
    constructor
    · intro h
      exact ⟨hphase, (Option.some.inj h).symm⟩
    · rintro ⟨_, rfl⟩
      rfl
  next hnone =>
    constructor
    · intro h
      contradiction
    · rintro ⟨hphase, _⟩
      exact absurd hphase hnone

/-- A worker is lost: it does not make a move any more. -/
def lose (pool : Pool) (worker : Nat) : Pool :=
  { pool with workers := pool.setPhase worker .stopped }

/-! ## Who counts -/

/-- Workers have numbers of their own, and those that count have not been replaced. -/
structure Sound (pool : Pool) : Prop where
  ids : pool.ids.Nodup
  fresh : ∀ id ∈ pool.ids, id < pool.nextId
  counted : ∀ id ∈ pool.active, id ∈ pool.ids
  once : pool.active.Nodup
  retired : ∀ id ∈ pool.retired, id < pool.nextId ∧ id ∉ pool.active

theorem sound_empty : Sound empty := by
  constructor <;> simp [empty, Pool.ids]

/-- What happens to the queue, the phases and the events does not matter for this. -/
theorem Sound.of_ids (h : pool.Sound) (hids : next.ids = pool.ids)
    (hactive : next.active = pool.active) (hretired : next.retired = pool.retired)
    (hnext : next.nextId = pool.nextId) : next.Sound := by
  constructor
  · rw [hids]
    exact h.ids
  · rw [hids, hnext]
    exact h.fresh
  · rw [hids, hactive]
    exact h.counted
  · rw [hactive]
    exact h.once
  · rw [hactive, hretired, hnext]
    exact h.retired

theorem Sound.spawn (h : pool.Sound) : pool.spawn.Sound := by
  have hids : pool.spawn.ids = pool.ids ++ [pool.nextId] := by
    simp [Pool.spawn, Pool.ids]
  have hnew : pool.nextId ∉ pool.ids := fun hmem => Nat.lt_irrefl _ (h.fresh _ hmem)
  constructor
  · rw [hids, List.nodup_append]
    simpa using ⟨h.ids, fun id hmem heq => hnew (heq ▸ hmem)⟩
  · rw [hids]
    intro id hmem
    rcases List.mem_append.mp hmem with hmem | hmem
    · exact Nat.lt_succ_of_lt (h.fresh id hmem)
    · rw [List.mem_singleton.mp hmem]
      exact Nat.lt_succ_self _
  · rw [hids]
    intro id hmem
    rcases List.mem_append.mp hmem with hmem | hmem
    · exact List.mem_append_left _ (h.counted id hmem)
    · exact List.mem_append_right _ hmem
  · change (pool.active ++ [pool.nextId]).Nodup
    rw [List.nodup_append]
    simpa using ⟨h.once, fun id hmem heq => hnew (heq ▸ h.counted id hmem)⟩
  · intro id hmem
    obtain ⟨hlt, hactive⟩ := h.retired id hmem
    constructor
    · exact Nat.lt_succ_of_lt hlt
    · intro hmem
      rcases List.mem_append.mp hmem with hmem | hmem
      · exact hactive hmem
      · rw [List.mem_singleton.mp hmem] at hlt
        exact Nat.lt_irrefl _ hlt

theorem Sound.retire (h : pool.Sound) (hmem : worker ∈ pool.active) :
    { pool with
      active := pool.active.erase worker
      retired := worker :: pool.retired }.Sound where
  ids := h.ids
  fresh := h.fresh
  counted := fun id hmem => h.counted id (List.mem_of_mem_erase hmem)
  once := h.once.erase worker
  retired := by
    intro id hid
    rcases List.mem_cons.mp hid with rfl | hid
    · exact ⟨h.fresh _ (h.counted _ hmem), h.once.not_mem_erase⟩
    · obtain ⟨hlt, hactive⟩ := h.retired id hid
      exact ⟨hlt, fun hmem => hactive (List.mem_of_mem_erase hmem)⟩

theorem Sound.replace (h : pool.Sound) (worker : Nat) : (pool.replace worker).Sound := by
  rw [Pool.replace]
  split
  next hactive => exact (h.retire (by simpa using hactive)).spawn
  next => exact h.spawn

theorem Sound.works (h : pool.Sound) (hworks : pool.Works next) : next.Sound := by
  obtain ⟨worker, htake | hanswer | hcheck⟩ := hworks
  · obtain ⟨request, rest, _, _, rfl⟩ := take?_eq_some_iff.mp htake
    exact h.of_ids ids_setPhase rfl rfl rfl
  · obtain ⟨request, _, rfl⟩ := answer?_eq_some_iff.mp hanswer
    exact h.of_ids ids_setPhase rfl rfl rfl
  · obtain ⟨_, rfl⟩ := check?_eq_some_iff.mp hcheck
    exact h.of_ids ids_setPhase rfl rfl rfl

theorem Sound.lose (h : pool.Sound) (worker : Nat) : (pool.lose worker).Sound :=
  h.of_ids ids_setPhase rfl rfl rfl

theorem sound_start (count : Nat) : (start count).Sound := by
  induction count with
  | zero => exact sound_empty
  | succ count ih => exact ih.spawn

/-! ## Nobody stops without being told so -/

/-- Only workers that have been replaced have stopped. -/
def Loyal (pool : Pool) : Prop :=
  ∀ w ∈ pool.workers, w.phase = .stopped → w.id ∈ pool.retired

theorem Loyal.setPhase (h : pool.Loyal) (hphase : phase = .stopped → worker ∈ pool.retired) :
    ∀ w ∈ pool.setPhase worker phase, w.phase = .stopped → w.id ∈ pool.retired := by
  intro w hmem hstopped
  rcases mem_setPhase hmem with rfl | ⟨hmem, _⟩
  · exact hphase hstopped
  · exact h w hmem hstopped

theorem Loyal.works (h : pool.Loyal) (hworks : pool.Works next) : next.Loyal := by
  obtain ⟨worker, htake | hanswer | hcheck⟩ := hworks
  · obtain ⟨request, rest, _, _, rfl⟩ := take?_eq_some_iff.mp htake
    exact h.setPhase (by simp)
  · obtain ⟨request, _, rfl⟩ := answer?_eq_some_iff.mp hanswer
    exact h.setPhase (by simp)
  · obtain ⟨_, rfl⟩ := check?_eq_some_iff.mp hcheck
    apply h.setPhase
    split <;> simp_all

theorem Loyal.spawn (h : pool.Loyal) : pool.spawn.Loyal := by
  intro w hmem hstopped
  rcases List.mem_append.mp hmem with hmem | hmem
  · exact h w hmem hstopped
  · rw [List.mem_singleton.mp hmem] at hstopped
    contradiction

theorem Loyal.replace (h : pool.Loyal) (worker : Nat) : (pool.replace worker).Loyal := by
  rw [Pool.replace]
  split
  · apply Loyal.spawn
    intro w hmem hstopped
    exact List.mem_cons_of_mem worker (h w hmem hstopped)
  · exact h.spawn

theorem loyal_start (count : Nat) : (start count).Loyal := by
  induction count with
  | zero => simp [Loyal, start, empty]
  | succ count ih => exact ih.spawn

theorem active_start_ne_nil {count : Nat} (h : count ≠ 0) : (start count).active ≠ [] := by
  cases count with
  | zero => contradiction
  | succ count => simp [start, spawn]

theorem active_replace_ne_nil (worker : Nat) : (pool.replace worker).active ≠ [] := by
  rw [replace]
  split <;> simp [spawn]

theorem Works.active_eq (h : pool.Works next) : next.active = pool.active := by
  obtain ⟨worker, htake | hanswer | hcheck⟩ := h
  · obtain ⟨request, rest, _, _, rfl⟩ := take?_eq_some_iff.mp htake
    rfl
  · obtain ⟨request, _, rfl⟩ := answer?_eq_some_iff.mp hanswer
    rfl
  · obtain ⟨_, rfl⟩ := check?_eq_some_iff.mp hcheck
    rfl

/-- Among the workers that count there is one that has not stopped. -/
theorem Loyal.exists_alive (h : pool.Loyal) (hsound : pool.Sound) (hactive : pool.active ≠ []) :
    ∃ w ∈ pool.workers, w.id ∈ pool.active ∧ w.phase ≠ .stopped := by
  obtain ⟨id, rest, hcons⟩ := List.exists_cons_of_ne_nil hactive
  have hid : id ∈ pool.active := hcons ▸ List.mem_cons_self
  obtain ⟨w, hmem, rfl⟩ := List.mem_map.mp (hsound.counted id hid)
  refine ⟨w, hmem, hid, fun hstopped => ?_⟩
  exact (hsound.retired _ (h w hmem hstopped)).2 hid

theorem not_isDead_of_alive (hsound : pool.Sound) {w : Worker} (hmem : w ∈ pool.workers)
    (hactive : w.id ∈ pool.active) (hstopped : w.phase ≠ .stopped) : pool.isDead = false := by
  rw [isDead, List.all_eq_false]
  refine ⟨w.id, hactive, ?_⟩
  rw [phase?_of_mem hsound.ids hmem]
  cases hphase : w.phase with
  | stopped => contradiction
  | waiting | running | answered => simp

end Pool
end SceneLang
