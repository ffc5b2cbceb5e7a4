import SceneLang.Proofs.Shift.Breaks

/-!
# Parses under different limits

The limits of a log say how much of what is reported is kept.  A parse never looks at its log, so
two parses of a text under different limits follow each other step by step, report the same, and
differ only in how much of it they keep.
-/

namespace SceneLang

open Movable (move)

/-! ## Logs -/

namespace Log

/-- Report one diagnostic after another. -/
def pushAll (log : Log) (ds : List Diagnostic) : Log :=
  ds.foldl push log

theorem pushAll_concat (log : Log) (ds : List Diagnostic) (d : Diagnostic) :
    log.pushAll (ds ++ [d]) = (log.pushAll ds).push d := by
  simp [pushAll]

/-- What is kept of a list when one entry is added to it. -/
theorem take_concat_of_lt {α : Type} {limit : Nat} {l : List α} (h : l.length < limit) (a : α) :
    (l ++ [a]).take limit = l.take limit ++ [a] := by
  have hboth : (l ++ [a]).length ≤ limit := by
    rw [List.length_append]
    exact h
  rw [List.take_of_length_le hboth, List.take_of_length_le (Nat.le_of_lt h)]

theorem take_concat_of_le {α : Type} {limit : Nat} {l : List α} (h : limit ≤ l.length) (a : α) :
    (l ++ [a]).take limit = l.take limit :=
  List.take_append_of_le_length h

/-- A log keeps the first errors and the first others, and counts the rest. -/
theorem pushAll_empty (limits : Limits) (ds : List Diagnostic) :
    (empty limits).pushAll ds =
      { limits := limits
        errors := (ds.filter (·.isError)).take limits.maxErrors
        warnings := (ds.filter (!·.isError)).take limits.maxWarnings
        droppedErrors := (ds.filter (·.isError)).length - limits.maxErrors
        droppedWarnings := (ds.filter (!·.isError)).length - limits.maxWarnings } := by
  induction ds using List.reverseRecOn with
  | nil => simp [pushAll, empty]
  | append_singleton ds d ih =>
      rw [pushAll_concat, ih, push]
      cases herror : d.isError with
      | true =>
          have hothers : (ds ++ [d]).filter (!·.isError) = ds.filter (!·.isError) := by
            simp [herror]
          have herrors : (ds ++ [d]).filter (·.isError) = ds.filter (·.isError) ++ [d] := by
            simp [herror]
          rw [hothers, herrors, if_pos rfl]
          dsimp only
          rw [List.length_take]
          by_cases hroom : (ds.filter (·.isError)).length < limits.maxErrors
          · rw [if_pos (by omega), take_concat_of_lt hroom]
            simp
            omega
          · rw [if_neg (by omega), take_concat_of_le (by omega)]
            simp
            omega
      | false =>
          have hothers : (ds ++ [d]).filter (!·.isError) = ds.filter (!·.isError) ++ [d] := by
            simp [herror]
          have herrors : (ds ++ [d]).filter (·.isError) = ds.filter (·.isError) := by
            simp [herror]
          rw [hothers, herrors, if_neg Bool.false_ne_true]
          dsimp only
          rw [List.length_take]
          by_cases hroom : (ds.filter (!·.isError)).length < limits.maxWarnings
          · rw [if_pos (by omega), take_concat_of_lt hroom]
            simp
            omega
          · rw [if_neg (by omega), take_concat_of_le (by omega)]
            simp
            omega

theorem hasErrors_pushAll_empty (limits : Limits) (ds : List Diagnostic) :
    ((empty limits).pushAll ds).hasErrors = !(ds.filter (·.isError)).isEmpty := by
  rw [pushAll_empty, hasErrors, errorCount, List.length_take]
  cases ds.filter (·.isError) with
  | nil => simp
  | cons d rest =>
      simp only [List.length_cons, List.isEmpty_cons, Bool.not_false, decide_eq_true_eq]
      omega

end Log

theorem Diagnostic.move_zero (d : Diagnostic) : move (.below 0) d = d := by
  have hlabels : d.labels.map (move (.below 0)) = d.labels := List.map_id _
  have hfixes : d.fixes.map (move (.below 0)) = d.fixes := List.map_id _
  exact congrArg₂ (fun fixes labels => { d with fixes := fixes, labels := labels }) hfixes hlabels

/-! ## Parses -/

namespace Parser

/-- Under other limits a parse notes down the same, but keeps another part of what it reports. -/
def Bond.limits (limits limits' : Limits) : Bond where
  shift := .below 0
  alike a b := ∃ ds, a = { b with log := (Log.empty limits).pushAll ds } ∧
    b.log = (Log.empty limits').pushAll ds
  report := by
    rintro _ b d ⟨ds, rfl, hlog⟩
    refine ⟨ds ++ [d], ?_, ?_⟩
    · rw [Log.pushAll_concat, Diagnostic.move_zero]
    · rw [Log.pushAll_concat, ← hlog]
  use := by
    rintro _ b feature ⟨ds, rfl, hlog⟩
    exact ⟨ds, rfl, hlog⟩
  interpolation := by
    rintro _ b number text ⟨ds, rfl, hlog⟩
    exact ⟨ds, rfl, hlog⟩
  imports := by
    rintro _ b decl ⟨ds, rfl, hlog⟩
    exact ⟨ds, rfl, hlog⟩

end Parser

namespace Document

/-- The document with no more diagnostics than limits allow. -/
def truncate (limits : Limits) (document : Document) : Document :=
  { document with
    errors := document.errors.take limits.maxErrors
    warnings := document.warnings.take limits.maxWarnings }

/-- There is room for a further error and for a further warning. -/
def Below (limits : Limits) (document : Document) : Prop :=
  document.errors.length < limits.maxErrors ∧ document.warnings.length < limits.maxWarnings

/-- What a list of diagnostics comes to. -/
def ofReports (root : Node) (notes : Parser.Notes) (ds : List Diagnostic) : Document where
  success := (ds.filter (·.isError)).isEmpty
  root := root
  errors := ds.filter (·.isError)
  warnings := ds.filter (!·.isError)
  expressions := notes.expressions
  imports := notes.imports
  features := Feature.inOrder notes.features

/-- Under two limits the same is reported, and the same is read. -/
theorem exists_reports (options : ParseOptions) (limits limits' : Limits) (source : List Char) :
    ∃ root state ds,
      Parser.run { options with limits := limits' } source (tokenize source) =
        .ok (root, state) ∧
      state.log = (Log.empty limits').pushAll ds ∧
      parse { options with limits := limits } source =
        (ofReports root state.notes ds).truncate limits ∧
      parse { options with limits := limits' } source =
        (ofReports root state.notes ds).truncate limits' := by
  have hmoved := @Parser.returns_document_moved (.limits limits limits')
    ⟨source, { options with limits := limits }⟩ ⟨source, { options with limits := limits' }⟩
    (tokenize source) { options with limits := limits' } { options with limits := limits }
    (ended_tokenize source) (start_le_of_tokenize source) rfl ⟨rfl, rfl, rfl⟩ ⟨[], rfl, rfl⟩
    ⟨[], rfl, rfl⟩
  obtain ⟨root, next, hrun, root', next', hrun', hroot, ds, hnotes, hlog⟩ := hmoved
  have hparse : Parser.run { options with limits := limits' } source (tokenize source) =
      .ok (root, next) := by
    rw [Parser.run, Parser.withEnd_tokenize]
    exact hrun
  have htokens : move (.below 0) (tokenize source) = tokenize source := List.map_id _
  have hparse' : Parser.run { options with limits := limits } source (tokenize source) =
      .ok (root', next') := by
    rw [Parser.run, Parser.withEnd_tokenize, ← htokens]
    exact hrun'
  have hback : parse { options with limits := limits' } source = ofState root next := by
    rw [parse, ofTokens, hparse]
  have hfront : parse { options with limits := limits } source = ofState root' next' := by
    rw [parse, ofTokens, hparse']
  -- behind no line breaks at all a tree stays as it is
  have hsame : root' = root := by
    have hbelow := congrArg Document.root
      (parse_below { options with limits := limits' } 0 source)
    rw [List.replicate_zero, List.nil_append, hback] at hbelow
    exact hroot.trans hbelow.symm
  have hexpressions : next'.expressions = next.expressions :=
    congrArg Parser.Notes.expressions hnotes
  have himports : next'.imports = next.imports := congrArg Parser.Notes.imports hnotes
  have hfeatures : next'.features = next.features := congrArg Parser.Notes.features hnotes
  have hlog' : next'.log = (Log.empty limits).pushAll ds := congrArg Parser.Notes.log hnotes
  have hlog : next.log = (Log.empty limits').pushAll ds := hlog
  refine ⟨root, next, ds, hparse, hlog, ?_, ?_⟩
  · rw [hfront, hsame, ofState, hlog', Log.hasErrors_pushAll_empty, Log.pushAll_empty,
      hexpressions, himports, hfeatures, Bool.not_not]
    rfl
  · rw [hback, ofState, hlog, Log.hasErrors_pushAll_empty, Log.pushAll_empty, Bool.not_not]
    rfl

theorem truncate_of_below {limits : Limits} {document : Document}
    (h : (document.truncate limits).Below limits) : document.truncate limits = document := by
  obtain ⟨herrors, hwarnings⟩ := h
  simp only [truncate, List.length_take] at herrors hwarnings
  rw [truncate, List.take_of_length_le (by omega), List.take_of_length_le (by omega)]

/-- Some limits are never reached. -/
theorem exists_below (options : ParseOptions) (source : List Char) :
    ∃ free, (parse { options with limits := free } source).Below free := by
  obtain ⟨_, state, _, hrun, _⟩ := exists_reports options ⟨0, 0⟩ ⟨0, 0⟩ source
  let free : Limits := ⟨state.log.errorCount + 1, state.log.warningCount + 1⟩
  obtain ⟨root, state', ds, hrun', hlog, hfree, _⟩ := exists_reports options free ⟨0, 0⟩ source
  have hsame : state' = state := by
    rw [hrun] at hrun'
    cases hrun'
    rfl
  rw [hsame, Log.pushAll_empty] at hlog
  have herrors : state.log.errorCount = (ds.filter (·.isError)).length := by
    simp [hlog, Log.errorCount]
  have hwarnings : state.log.warningCount = (ds.filter (!·.isError)).length := by
    simp [hlog, Log.warningCount]
  refine ⟨free, ?_⟩
  rw [hfree]
  simp only [Below, truncate, ofReports, List.length_take, free]
  omega

/-- Limits only say how much is kept.  Whatever they are, the document is that of a parse that
never reaches its limits, with the first of its errors and the first of its warnings and notes; it
is a failure if and only if that parse reports an error. -/
theorem parse_truncates (options : ParseOptions) (source : List Char) :
    (∃ free, (parse { options with limits := free } source).Below free) ∧
    ∀ free, (parse { options with limits := free } source).Below free →
      ∀ limits,
        parse { options with limits := limits } source =
          (parse { options with limits := free } source).truncate limits ∧
        ((parse { options with limits := limits } source).success = false ↔
          (parse { options with limits := free } source).errors ≠ []) ∧
        (∀ d ∈ (parse { options with limits := limits } source).errors, d.isError = true) ∧
        ∀ d ∈ (parse { options with limits := limits } source).warnings, d.isError = false := by
  refine ⟨exists_below options source, fun free hfree limits => ?_⟩
  obtain ⟨root, state, ds, _, _, hlimits, hreports⟩ := exists_reports options limits free source
  rw [hreports] at hfree
  rw [truncate_of_below hfree] at hreports
  rw [hlimits, hreports]
  refine ⟨rfl, ?_, ?_, ?_⟩
  · simp [truncate, ofReports]
  · intro d hd
    exact List.of_mem_filter (List.mem_of_mem_take hd)
  · intro d hd
    simpa using List.of_mem_filter (List.mem_of_mem_take hd)

/-- A brace that closes nothing, under limits that keep nothing. -/
theorem parse_truncates_of_stray : ∃ free,
    (parse { ParseOptions.default with limits := free } ['}']).Below free ∧
      parse { ParseOptions.default with limits := ⟨0, 0⟩ } ['}'] =
        (parse { ParseOptions.default with limits := free } ['}']).truncate ⟨0, 0⟩ := by
  obtain ⟨⟨free, hfree⟩, htruncates⟩ := parse_truncates .default ['}']
  exact ⟨free, hfree, (htruncates free hfree ⟨0, 0⟩).1⟩

end Document

end SceneLang
