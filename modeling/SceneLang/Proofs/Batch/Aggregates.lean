import Mathlib.Data.List.Perm.Subperm
import SceneLang.Batch.Symbols
import SceneLang.Proofs.Batch.Runs
import SceneLang.Proofs.Table.Ascending

/-!
# What is told of a whole batch

Linking takes results one after another.  A name ends up with its last export, and a path with the
imports of all results of that path, each where it came up first.  So a file depends on a path if
and only if it is listed among the dependents of the path, and an import is unresolved if no result
exports its name.

The numbers, the symbols and the dependencies of a batch go over the results of all its files.  The
results by path keep the last one of each path.  So both tell of the same results exactly if no two
files have the same path.
-/

namespace SceneLang

/-! ## Symbols and dependencies -/

/-- The paths that a file imports, in the order of its imports and as often as they come up. -/
def TaskResult.importPaths (result : TaskResult) : List String :=
  result.imports.map (·.path)

namespace DependencyGraph

theorem dependencies_addFile (graph : DependencyGraph) (file other : String)
    (imports : List String) : (addFile graph file imports).dependencies other =
      if other = file then imports.foldl addPath (graph.dependencies file)
      else graph.dependencies other := by
  rw [dependencies, addFile, Table.find?_insert]
  split
  · rfl
  · rfl

theorem addPath_eraseDups (paths : List String) (path : String) :
    addPath paths.eraseDups path = (paths ++ [path]).eraseDups := by
  rw [addPath, List.eraseDups_append]
  by_cases hmem : path ∈ paths
  · simp [hmem, List.removeAll]
  · simp [hmem, List.removeAll, List.eraseDups_cons]

/-- Paths that are added one after another stand where they came up first. -/
theorem foldl_addPath (paths imports : List String) :
    imports.foldl addPath paths.eraseDups = (paths ++ imports).eraseDups := by
  induction imports generalizing paths with
  | nil => simp
  | cons path rest ih => simp [addPath_eraseDups, ih]

end DependencyGraph

theorem link_concat (results : List TaskResult) (result : TaskResult) :
    link (results ++ [result]) =
      (result.symbols.foldl SymbolTable.add (link results).1,
        DependencyGraph.addFile (link results).2 result.path result.importPaths) := by
  simp [link, List.foldl_append, TaskResult.importPaths]

/-- The symbols are the table of all exports in the order of the results. -/
theorem symbols_link (results : List TaskResult) : (link results).1 =
    .ofList ((results.flatMap (·.symbols)).map fun symbol => (symbol.name, symbol)) := by
  induction results using List.reverseRecOn with
  | nil => rfl
  | append_singleton rest result ih =>
      rw [link_concat, ih]
      simp only [Table.ofList, List.flatMap_append, List.flatMap_singleton, List.map_append,
        List.foldl_append, List.foldl_map]
      rfl

theorem ascending_symbols_link (results : List TaskResult) : (link results).1.Ascending := by
  rw [symbols_link]
  exact Table.ascending_ofList _

/-- The last export of a name counts. -/
theorem find?_symbols_link (results : List TaskResult) (name : String) :
    (link results).1.find? name =
      ((results.flatMap (·.symbols)).filter (·.name = name)).getLast? := by
  rw [symbols_link, Table.find?_ofList, List.filter_map, List.getLast?_map, Option.map_map]
  exact Option.map_id'

theorem dependencies_link (results : List TaskResult) (file : String) :
    (link results).2.dependencies file =
      ((results.filter (·.path = file)).flatMap (·.importPaths)).eraseDups := by
  induction results using List.reverseRecOn with
  | nil => rfl
  | append_singleton rest result ih =>
      rw [link_concat, DependencyGraph.dependencies_addFile]
      by_cases heq : result.path = file
      · subst heq
        simp [ih, DependencyGraph.foldl_addPath]
      · simp [ih, heq, Ne.symm heq]

theorem ascending_dependencies_link (results : List TaskResult) :
    (link results).2.Ascending := by
  induction results using List.reverseRecOn with
  | nil => exact Table.ascending_nil
  | append_singleton rest result ih =>
      rw [link_concat]
      exact ih.insert _ _

/-- In a graph that lists each file once, the dependents of a path are the files that depend on it. -/
theorem DependencyGraph.mem_dependents {graph : DependencyGraph} (h : Table.Ascending graph)
    (file path : String) : file ∈ graph.dependents path ↔ path ∈ graph.dependencies file := by
  have hentry : file ∈ graph.dependents path ↔ ∃ paths, (file, paths) ∈ graph ∧ path ∈ paths := by
    simp [dependents, Table.keys]
  simp only [hentry, ← h.find?_eq_some_iff, dependencies]
  cases Table.find? file graph with
  | none => simp
  | some paths => simp

/-! ## Unresolved imports -/

/-- Some result exports the name. -/
def ExportedBy (results : List TaskResult) (name : String) : Prop :=
  ∃ result ∈ results, ∃ found ∈ result.exports, found.name = name

instance (results : List TaskResult) (name : String) : Decidable (ExportedBy results name) :=
  inferInstanceAs (Decidable (∃ result ∈ results, ∃ found ∈ result.exports, found.name = name))

/-- A name that a file imports from a path. -/
structure ImportedName where
  file : String
  path : String
  name : String

/-- The names that are imported, in the order in which they are written. -/
def importedNames (results : List TaskResult) : List ImportedName :=
  results.flatMap fun result => result.imports.flatMap fun decl =>
    decl.names.map fun imported => ⟨result.path, decl.path, imported.name⟩

theorem contains_symbols_link (results : List TaskResult) (name : String) :
    (link results).1.contains name = true ↔ ExportedBy results name := by
  rw [Table.contains, find?_symbols_link, List.getLast?_isSome, ne_eq, List.filter_eq_nil_iff]
  simp [ExportedBy, TaskResult.symbols]

theorem unresolvedImports_link (results : List TaskResult) :
    unresolvedImports results (link results).1 =
      ((importedNames results).filter fun imported => ¬ExportedBy results imported.name).map
        fun imported => unresolvedImport imported.file imported.path imported.name := by
  have hexported (name : String) :
      (!(link results).1.contains name) = decide (¬ExportedBy results name) := by
    rw [Bool.eq_iff_iff, Bool.not_eq_true', decide_eq_true_iff, ← contains_symbols_link,
      Bool.not_eq_true]
  simp only [unresolvedImports, importedNames, hexported, List.filter_flatMap, List.map_flatMap,
    List.filter_map, List.map_map]
  rfl

/-- Each name stands for its last export, a file depends on the paths that it imports, in the order
in which they came up first, and is listed among their dependents, and there is a warning, in order,
for each imported name that no result exports. -/
theorem link_exact (results : List TaskResult) :
    (∀ name, (link results).1.find? name =
      ((results.flatMap (·.symbols)).filter (·.name = name)).getLast?) ∧
    (∀ file, (link results).2.dependencies file =
      ((results.filter (·.path = file)).flatMap (·.importPaths)).eraseDups) ∧
    (∀ file path, file ∈ (link results).2.dependents path ↔
      path ∈ (link results).2.dependencies file) ∧
    unresolvedImports results (link results).1 =
      ((importedNames results).filter fun imported => ¬ExportedBy results imported.name).map
        (fun imported => unresolvedImport imported.file imported.path imported.name) ∧
    ∀ file path name, (unresolvedImport file path name).isError = false := by
  refine ⟨find?_symbols_link results, dependencies_link results, ?_,
    unresolvedImports_link results, fun _ _ _ => rfl⟩
  exact DependencyGraph.mem_dependents (ascending_dependencies_link results)

namespace BatchResult

variable {batch : BatchResult} {results : List TaskResult}

/-! ## Told from the results of all files -/

/-- A batch puts together the results of its files, listed in the order of the files. -/
structure Gathers (batch : BatchResult) (results : List TaskResult) : Prop where
  last : ∀ path, batch.results.find? path = (results.filter (·.path = path)).getLast?
  succeeded : batch.successCount = results.countP (·.success)
  failed : batch.failCount = results.countP (!·.success)
  symbols : ∀ name, batch.symbols.find? name =
    ((results.flatMap (·.symbols)).filter (·.name = name)).getLast?
  dependencies : ∀ path, batch.graph.dependencies path =
    ((results.filter (·.path = path)).flatMap (·.importPaths)).eraseDups

theorem find?_results_ofResults (results : List TaskResult) (path : String) :
    (ofResults results).results.find? path = (results.filter (·.path = path)).getLast? := by
  rw [ofResults, Table.find?_ofList, List.filter_map, List.getLast?_map, Option.map_map]
  exact Option.map_id'

theorem gathers_ofResults (results : List TaskResult) : (ofResults results).Gathers results where
  last := find?_results_ofResults results
  succeeded := rfl
  failed := rfl
  symbols := find?_symbols_link results
  dependencies := dependencies_link results

/-- Each file is counted once. -/
theorem successCount_add_failCount (results : List TaskResult) :
    (ofResults results).successCount + (ofResults results).failCount = results.length := by
  simpa [ofResults] using (results.length_eq_countP_add_countP (·.success)).symm

/-! ## Told from the results by path -/

/-- The numbers, symbols and dependencies of a batch are those of its results by path. -/
structure Consistent (batch : BatchResult) : Prop where
  succeeded : batch.successCount = batch.results.countP (·.2.success)
  failed : batch.failCount = batch.results.countP (!·.2.success)
  symbols : ∀ entry ∈ batch.symbols, ∃ result,
    batch.results.find? entry.2.file = some result ∧ entry.2 ∈ result.symbols
  dependencies : ∀ path, batch.graph.dependencies path =
    ((batch.results.find? path).elim [] (·.importPaths)).eraseDups

theorem Consistent.allSucceeded_iff (h : batch.Consistent) :
    batch.allSucceeded = true ↔ batch.failures = [] := by
  have hfailed : batch.failCount = 0 ↔ ∀ entry ∈ batch.results, entry.2.success = true := by
    simp [h.failed]
  simp [allSucceeded, failures, hfailed, List.filter_map]

theorem Consistent.total (h : batch.Consistent) :
    batch.successCount + batch.failCount = batch.results.length := by
  rw [h.succeeded, h.failed]
  simpa using (batch.results.length_eq_countP_add_countP (·.2.success)).symm

/-- The names of the results by path are the paths of the results, each of them once. -/
theorem nodup_paths_of_length (h : (ofResults results).results.length = results.length) :
    (results.map (·.path)).Nodup := by
  have hascending : (ofResults results).results.Ascending := Table.ascending_ofList _
  have hnodup : ((ofResults results).results.map (·.1)).Nodup := by
    rw [List.nodup_iff_pairwise_ne, List.pairwise_map]
    exact hascending.imp fun hlt => Table.ne_of_lt hlt
  have hsubset : (ofResults results).results.map (·.1) ⊆ results.map (·.path) := by
    intro path hmem
    obtain ⟨⟨_, result⟩, hentry, rfl⟩ := List.mem_map.mp hmem
    rw [← hascending.find?_eq_some_iff, find?_results_ofResults] at hentry
    obtain ⟨hresult, hpath⟩ := List.mem_filter.mp (List.mem_of_getLast? hentry)
    exact List.mem_map.mpr ⟨result, hresult, of_decide_eq_true hpath⟩
  have hperm : ((ofResults results).results.map (·.1)).Perm (results.map (·.path)) :=
    (List.subperm_of_subset hnodup hsubset).perm_of_length_le (by simp [h])
  exact hperm.nodup_iff.mp hnodup

section Distinct

variable (h : (results.map (·.path)).Nodup)
include h

theorem results_ofResults_perm :
    (ofResults results).results.Perm (results.map fun result => (result.path, result)) :=
  Table.ofList_perm (by simpa [List.map_map, Function.comp_def] using h)

theorem find?_results_of_mem {result : TaskResult} (hmem : result ∈ results) :
    (ofResults results).results.find? result.path = some result := by
  have hascending : (ofResults results).results.Ascending := Table.ascending_ofList _
  rw [hascending.find?_eq_some_iff, (results_ofResults_perm h).mem_iff]
  exact List.mem_map_of_mem hmem

/-- There is at most one result of each path. -/
theorem filter_path_eq (path : String) : results.filter (·.path = path) =
    ((ofResults results).results.find? path).toList := by
  have hlast := find?_results_ofResults results path
  have hshort : (results.filter (·.path = path)).length ≤ 1 := by
    have hpaths : ((results.filter (·.path = path)).map (·.path)).Nodup :=
      h.sublist (List.filter_sublist.map _)
    have hall : (results.filter (·.path = path)).map (·.path) =
        List.replicate ((results.filter (·.path = path)).map (·.path)).length path := by
      apply List.eq_replicate_of_mem
      intro other hother
      obtain ⟨result, hresult, rfl⟩ := List.mem_map.mp hother
      exact of_decide_eq_true (List.mem_filter.mp hresult).2
    rwa [hall, List.nodup_replicate, List.length_map] at hpaths
  rw [hlast]
  generalize results.filter (·.path = path) = filtered at hshort
  match filtered, hshort with
  | [], _ => rfl
  | [result], _ => rfl

theorem consistent_ofResults : (ofResults results).Consistent where
  succeeded := by
    rw [(results_ofResults_perm h).countP_eq, List.countP_map]
    rfl
  failed := by
    rw [(results_ofResults_perm h).countP_eq, List.countP_map]
    rfl
  symbols := by
    rintro ⟨name, symbol⟩ hentry
    have hascending : (ofResults results).symbols.Ascending := ascending_symbols_link results
    rw [← hascending.find?_eq_some_iff, (gathers_ofResults results).symbols] at hentry
    obtain ⟨hsymbol, _⟩ := List.mem_filter.mp (List.mem_of_getLast? hentry)
    obtain ⟨result, hresult, hexported⟩ := List.mem_flatMap.mp hsymbol
    have hfile : symbol.file = result.path := by
      obtain ⟨_, _, rfl⟩ := List.mem_map.mp hexported
      rfl
    exact ⟨result, by simpa [hfile] using find?_results_of_mem h hresult, hexported⟩
  dependencies := by
    intro path
    rw [(gathers_ofResults results).dependencies, filter_path_eq h]
    cases (ofResults results).results.find? path with
    | none => rfl
    | some result => simp

end Distinct

theorem consistent_ofResults_iff :
    (ofResults results).Consistent ↔ (results.map (·.path)).Nodup := by
  constructor
  · intro hconsistent
    apply nodup_paths_of_length
    rw [← hconsistent.total, successCount_add_failCount]
  · exact consistent_ofResults

end BatchResult

/-- Whatever the order in which workers make their moves, an answer puts together one result of each
file, and its numbers, symbols and dependencies are those of its results by path exactly if no two
of the files have the same path. -/
theorem Desk.answers_consistent_iff (options : BatchOptions) (lossy : Bool) (desk : Desk)
    (hreaches : Reaches lossy (start options) desk) :
    ∀ answer ∈ desk.answered,
      (∃ results, List.Forall₂ (fun file result => result.Outcome options lossy file)
        answer.files results ∧ answer.result.Gathers results) ∧
      (answer.result.Consistent ↔ (answer.files.map (·.path)).Nodup) := by
  intro answer hmem
  have hsound := (sound_start options lossy).reaches hreaches
  obtain ⟨results, hresult, houtcomes⟩ := (hsound.answered answer hmem).results
  have hpaths : results.map (·.path) = answer.files.map (·.path) := by
    rw [← List.forall₂_eq_eq_eq, List.forall₂_map_left_iff, List.forall₂_map_right_iff]
    exact houtcomes.flip.imp fun _ _ houtcome => houtcome.path_eq
  rw [hresult, BatchResult.consistent_ofResults_iff, hpaths]
  exact ⟨⟨results, houtcomes, BatchResult.gathers_ofResults results⟩, .rfl⟩

/-- Two files of different paths that two workers parse. -/
theorem Desk.answers_consistent_of_two : ∃ desk, Reaches false (start (.default 2)) desk ∧
    ∃ answer ∈ desk.answered, answer.files = [⟨"a.holo", []⟩, ⟨"b.holo", ['x']⟩] ∧
      answer.result.Consistent := by
  obtain ⟨answer, given, _, hfiles, hreaches⟩ := (sound_start (.default 2) false).reaches_parse
    rfl rfl [⟨"a.holo", []⟩, ⟨"b.holo", ['x']⟩]
  have hmem : answer ∈ (start (.default 2)).answered ++ [answer] :=
    List.mem_append_right _ (List.mem_singleton.mpr rfl)
  obtain ⟨_, hconsistent⟩ := answers_consistent_iff (.default 2) false _ hreaches answer hmem
  have hdistinct : (answer.files.map (·.path)).Nodup := by
    rw [hfiles]
    decide
  exact ⟨_, hreaches, answer, hmem, hfiles, hconsistent.mpr hdistinct⟩

/-- A file that fails is counted, exports and imports even if a later file takes over its path. -/
theorem BatchParser.parse_not_consistent : ¬∀ options files result progress,
    ((new options).parse files).1 = .ok (result, progress) → result.Consistent := by
  intro hconsistent
  let failing : SourceFile := ⟨"a.holo", "orb \"A\" \x7b".toList⟩
  let later : SourceFile := ⟨"a.holo", "orb \"B\" \x7b\x7d".toList⟩
  obtain ⟨progress, hparse⟩ :=
    @parse_without_workers (.default 0) [failing, later]
  have hdistinct := BatchResult.consistent_ofResults_iff.mp (hconsistent _ _ _ _ hparse)
  exact absurd hdistinct (by simp [failing, later, SourceFile.parse, TaskResult.ofDocument])

end SceneLang
