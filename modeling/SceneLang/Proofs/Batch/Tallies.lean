import Mathlib.Data.List.Nodup
import Mathlib.Data.List.Forall2
import SceneLang.Batch.Parse

/-!
# Tallies of whole calls

A tally is what comes of recording results one after another, in the order in which they arrive.
Once every slot has come up once, the slots list the results in the order of the files, and the
progress has one row for each file, numbered from one on.
-/

namespace SceneLang

/-! ## Progress -/

/-- The rows of results that arrive one after another. -/
def Progress.rows (total completed failed : Nat) : List TaskResult → List Progress
  | [] => []
  | result :: rest =>
      let failed := if result.success then failed else failed + 1
      ⟨total, completed + 1, failed, result.path⟩ :: rows total (completed + 1) failed rest

namespace Progress

variable (total completed failed : Nat) (results : List TaskResult)

theorem completed_rows : (rows total completed failed results).map (·.completed) =
    List.range' (completed + 1) results.length := by
  induction results generalizing completed failed with
  | nil => rfl
  | cons result rest ih => simp [rows, ih, List.range'_succ]

theorem file_rows : (rows total completed failed results).map (·.file) =
    results.map (·.path) := by
  induction results generalizing completed failed with
  | nil => rfl
  | cons result rest ih => simp [rows, ih]

theorem total_rows {row : Progress} (h : row ∈ rows total completed failed results) :
    row.total = total := by
  induction results generalizing completed failed with
  | nil => simp [rows] at h
  | cons result rest ih =>
      rcases List.mem_cons.mp h with rfl | hrest
      · rfl
      · exact ih _ _ hrest

end Progress

namespace Tally

/-! ## Recording one result after another -/

/-- Record results as they arrive, each with the index of its file. -/
def recordAll (tally : Tally) (log : List (Nat × TaskResult)) : Tally :=
  log.foldl (fun tally entry => tally.record entry.1 entry.2.path entry.2) tally

variable {tally : Tally} {log : List (Nat × TaskResult)} {index : Nat} {result : TaskResult}

theorem recordAll_cons (entry : Nat × TaskResult) :
    tally.recordAll (entry :: log) =
      (tally.record entry.1 entry.2.path entry.2).recordAll log :=
  rfl

theorem recordAll_concat (entry : Nat × TaskResult) :
    tally.recordAll (log ++ [entry]) =
      (tally.recordAll log).record entry.1 entry.2.path entry.2 := by
  simp [recordAll, List.foldl_append]

@[simp] theorem length_slots_recordAll :
    (tally.recordAll log).slots.length = tally.slots.length := by
  induction log generalizing tally with
  | nil => rfl
  | cons entry rest ih => simp [recordAll_cons, ih, record]

theorem slots_recordAll_of_not_mem (h : index ∉ log.map Prod.fst) :
    (tally.recordAll log).slots[index]? = tally.slots[index]? := by
  induction log generalizing tally with
  | nil => rfl
  | cons entry rest ih =>
      rw [List.map_cons, List.mem_cons, not_or] at h
      rw [recordAll_cons, ih h.2]
      simp [record, Ne.symm h.1]

theorem slots_recordAll_of_mem (hnodup : (log.map Prod.fst).Nodup) (hmem : (index, result) ∈ log)
    (hlt : index < tally.slots.length) :
    (tally.recordAll log).slots[index]? = some (some result) := by
  induction log generalizing tally with
  | nil => simp at hmem
  | cons entry rest ih =>
      rw [List.map_cons, List.nodup_cons] at hnodup
      rw [recordAll_cons]
      rcases List.mem_cons.mp hmem with rfl | hrest
      · rw [slots_recordAll_of_not_mem hnodup.1]
        simp [record, hlt]
      · exact ih hnodup.2 hrest (by simpa [record] using hlt)

theorem progress_recordAll : (tally.recordAll log).progress = tally.progress ++
    Progress.rows tally.slots.length tally.completed tally.failed (log.map Prod.snd) := by
  induction log generalizing tally with
  | nil => simp [recordAll, Progress.rows]
  | cons entry rest ih => simp [recordAll_cons, ih, record, Progress.rows]

/-! ## Complete tallies -/

/-- Each file has one result, which has to do with it as said, and one row of the progress; the
rows are numbered from one on. -/
structure Complete (outcome : SourceFile → TaskResult → Prop) (files : List SourceFile)
    (tally : Tally) (results : List TaskResult) : Prop where
  slots : tally.slots = results.map some
  outcomes : List.Forall₂ outcome files results
  completed : tally.progress.map (·.completed) = List.range' 1 files.length
  reported : (tally.progress.map (·.file)).Perm (files.map (·.path))
  total : ∀ row ∈ tally.progress, row.total = files.length

variable {outcome : SourceFile → TaskResult → Prop} {files : List SourceFile}

theorem Complete.results_eq {results : List TaskResult}
    (h : tally.Complete outcome files results) : tally.results = results := by
  simp [Tally.results, h.slots, List.filterMap_map]

/-- A log in which each index comes up once can be listed in the order of the indices. -/
theorem exists_results {count : Nat} (h : (log.map Prod.fst).Perm (List.range count)) :
    ∃ results : List TaskResult, results.length = count ∧ results.Perm (log.map Prod.snd) ∧
      ∀ index (hlt : index < results.length), (index, results[index]) ∈ log := by
  let sorted := log.mergeSort fun a b => a.1 ≤ b.1
  have hperm : sorted.Perm log := List.mergeSort_perm log _
  have hsorted : sorted.map Prod.fst = List.range count := by
    have hpairwise : (sorted.map Prod.fst).Pairwise (· ≤ ·) := by
      rw [List.pairwise_map]
      have htrans : ∀ a b c : Nat × TaskResult, decide (a.1 ≤ b.1) = true →
          decide (b.1 ≤ c.1) = true → decide (a.1 ≤ c.1) = true := by
        intro a b c hab hbc
        simp only [decide_eq_true_eq] at hab hbc ⊢
        omega
      have htotal : ∀ a b : Nat × TaskResult,
          (decide (a.1 ≤ b.1) || decide (b.1 ≤ a.1)) = true := by
        intro a b
        simp only [Bool.or_eq_true, decide_eq_true_eq]
        omega
      exact (List.pairwise_mergeSort htrans htotal log).imp fun hle => of_decide_eq_true hle
    have hrange : (List.range count).Pairwise (· ≤ ·) := List.pairwise_lt_range.imp Nat.le_of_lt
    exact List.Perm.eq_of_pairwise (fun a b _ _ hab hba => Nat.le_antisymm hab hba) hpairwise hrange
      ((hperm.map Prod.fst).trans h)
  have hlength : sorted.length = count := by
    rw [← List.length_map, hsorted, List.length_range]
  refine ⟨sorted.map Prod.snd, by simpa using hlength, hperm.map Prod.snd, ?_⟩
  intro index hlt
  have hlt' : index < sorted.length := by simpa using hlt
  have hfst : sorted[index].1 = index := by
    have hget : (sorted.map Prod.fst)[index]? = some index := by
      rw [hsorted, List.getElem?_range (hlength ▸ hlt')]
    simpa [hlt'] using hget
  have hentry : (index, (sorted.map Prod.snd)[index]) = sorted[index] := by
    rw [List.getElem_map]
    exact Prod.ext hfst.symm rfl
  rw [hentry]
  exact hperm.mem_iff.mp (List.getElem_mem hlt')

/-- Once each index has come up once, the tally is complete. -/
theorem complete_recordAll (hindices : (log.map Prod.fst).Perm (List.range files.length))
    (hentries : ∀ entry ∈ log, ∃ file, files[entry.1]? = some file ∧ outcome file entry.2 ∧
      entry.2.path = file.path) :
    ∃ results, ((Tally.start files.length).recordAll log).Complete outcome files results := by
  obtain ⟨results, hlength, hperm, hresults⟩ := exists_results hindices
  have hnodup : (log.map Prod.fst).Nodup := hindices.nodup_iff.mpr List.nodup_range
  have hfile : ∀ index (hlt : index < results.length) (hfiles : index < files.length),
      outcome files[index] results[index] ∧ results[index].path = files[index].path := by
    intro index hlt hfiles
    obtain ⟨file, hget, houtcome, hpath⟩ := hentries _ (hresults index hlt)
    have hfile : files[index] = file := by simpa [hfiles] using hget
    rw [hfile]
    exact ⟨houtcome, hpath⟩
  have hpaths : results.map (·.path) = files.map (·.path) := by
    apply List.ext_getElem (by simpa using hlength)
    intro index hlt hfiles
    simpa using (hfile index (by simpa using hlt) (by simpa using hfiles)).2
  refine ⟨results, ?_, ?_, ?_, ?_, ?_⟩
  · apply List.ext_getElem?
    intro index
    by_cases hlt : index < results.length
    · have hslot : index < (Tally.start files.length).slots.length := by
        simpa [start, hlength] using hlt
      rw [slots_recordAll_of_mem hnodup (hresults index hlt) hslot]
      simp [hlt]
    · have hslot : ¬index < ((Tally.start files.length).recordAll log).slots.length := by
        simpa [start, hlength] using hlt
      rw [List.getElem?_eq_none (Nat.not_lt.mp hslot), List.getElem?_eq_none]
      simpa using hlt
  · rw [List.forall₂_iff_get]
    refine ⟨hlength.symm, fun index hfiles hlt => ?_⟩
    exact (hfile index hlt hfiles).1
  · rw [progress_recordAll]
    have hlog : log.length = files.length := by simpa using hindices.length_eq
    simp [start, Progress.completed_rows, hlog]
  · rw [progress_recordAll, ← hpaths]
    simpa [start, Progress.file_rows] using (hperm.map (·.path)).symm
  · intro row hrow
    rw [progress_recordAll] at hrow
    have hrows : row ∈ Progress.rows (Tally.start files.length).slots.length 0 0
        (log.map Prod.snd) := by
      simpa [start] using hrow
    rw [Progress.total_rows _ _ _ _ hrows]
    simp [start]

end Tally

end SceneLang
