import SceneLang.Proofs.Numbering.Builds
import SceneLang.Proofs.Parser.Nesting

/-!
# Interpolations in values

A value is built of the values within it and of the one interpolation that it may be itself.  What a
loop goes on with holds the items read so far; an operator takes the value in front of it.
-/

namespace SceneLang

open Value (interpolations)

theorem Value.interpolations_foldl_unary (ops : List UnaryOp) (value : Value) :
    (ops.foldl (fun value op => Value.unary op value) value).interpolations =
      value.interpolations := by
  induction ops generalizing value with
  | nil => rfl
  | cons op rest ih =>
      rw [List.foldl_cons, ih, Value.interpolations]

namespace Parser

/-- What is read of a list so far. -/
def itemParts (found : List Value × Bool) : List Interpolation :=
  found.1.flatMap interpolations

def entryParts (found : List ObjectEntry × Bool) : List Interpolation :=
  found.1.flatMap ObjectEntry.interpolations

section

variable {inner : Inner} (hinner : ∀ strength, Builds [] (inner strength) interpolations)

/-! ## Operators and lists -/

theorem builds_chainTurn {operator? : TokenKind → Option BinaryOp} {operand : Parser Value}
    (hoperand : Builds [] operand interpolations) (left : Value) :
    Builds left.interpolations (chainTurn operator? operand left)
      (turnParts interpolations interpolations) := by
  refine .before resting_currentKind.steady fun kind => ?_
  split
  · exact .give rfl
  · exact .before steady_advance fun _ => .read hoperand fun _ => .give rfl

theorem builds_chain {operator? : TokenKind → Option BinaryOp} {operand : Parser Value}
    (hoperand : Builds [] operand interpolations) :
    Builds [] (chain operator? operand) interpolations :=
  .bind hoperand fun _ => .iterate (builds_chainTurn hoperand)

include hinner

theorem builds_sequenceItem : Builds [] (sequenceItem inner) interpolations := by
  refine .before (steady_eat .spread) fun _ => .ite (fun _ => ?_) fun _ => hinner .any
  exact .before (resting_use .spread).steady fun _ => .bind (hinner .any) fun _ =>
    .give rfl

omit hinner in
theorem builds_sequenceNext (delimiter : Delimiter) (items : List Value) :
    Builds (items.flatMap interpolations) (sequenceNext delimiter items)
      (turnParts itemParts itemParts) := by
  refine .before (steady_eat .comma) fun _ => .ite (fun _ => ?_) fun _ => ?_
  · exact .give rfl
  refine .before (resting_check _).steady fun _ => .ite (fun _ => ?_) fun _ => ?_
  · exact .give rfl
  · exact .before (steady_expectClosing delimiter) fun _ => .give rfl

theorem builds_sequenceTurn (delimiter : Delimiter) (items : List Value) :
    Builds (items.flatMap interpolations) (sequenceTurn inner delimiter items)
      (turnParts itemParts itemParts) := by
  refine .before (steady_eat delimiter.closing) fun _ => .ite (fun _ => ?_) fun _ => ?_
  · exact .give rfl
  refine .before resting_currentKind.steady fun _ => .ite (fun _ => ?_) fun _ => ?_
  · exact .before (steady_expectClosing delimiter) fun _ => .give rfl
  refine .before (resting_setValueFailed false).steady fun _ =>
    .read (builds_sequenceItem hinner) fun item =>
      .before (steady_ifFailed steady_recoverInList) fun _ => ?_
  refine (builds_sequenceNext delimiter (item :: items)).of_count_le fun one => ?_
  rw [List.flatMap_cons, List.count_append, List.count_append]
  omega

theorem builds_sequence (delimiter : Delimiter) :
    Builds [] (sequence inner delimiter) (·.flatMap interpolations) := by
  have hloop : Builds (itemParts ([], false)) (iterate ([], false)
      fun (found : List Value × Bool) => sequenceTurn inner delimiter found.1) itemParts :=
    .iterate fun found => builds_sequenceTurn hinner delimiter found.1
  refine .bind hloop ?_
  rintro ⟨items, closed⟩
  refine .ite (fun _ => ?_) fun _ => .reverse _ items
  exact .before (resting_setValueFailed false).steady fun _ => .reverse _ items

/-! ## Objects and functions -/

theorem builds_fieldValue (key : Token) : Builds [] (fieldValue inner key) interpolations := by
  refine .before resting_currentKind.steady fun kind => .ite (fun _ => ?_) fun _ =>
    .ite (fun _ => .give rfl) fun _ => ?_
  · exact .before steady_advance fun _ => hinner .any
  · exact .before (resting_report _).steady fun _ => hinner .any

omit hinner in
/-- An entry that has been read is put in front of those before it. -/
theorem builds_entry {p : Parser Value} (hp : Builds [] p interpolations)
    (entry : Value → ObjectEntry) (hentry : ∀ value, (entry value).interpolations =
      value.interpolations) (entries : List ObjectEntry) :
    Builds (entries.flatMap ObjectEntry.interpolations) (do
        let value ← p
        ifFailed recoverInList
        return ForInStep.yield (entry value :: entries, false))
      (turnParts entryParts entryParts) := by
  refine .read hp fun value => .before (steady_ifFailed steady_recoverInList) fun _ =>
    .pure fun one => ?_
  rw [turnParts, entryParts, List.flatMap_cons, hentry, List.count_append, List.count_append]
  omega

theorem builds_objectTurn (opening : Token) (entries : List ObjectEntry) :
    Builds (entries.flatMap ObjectEntry.interpolations) (objectTurn inner opening entries)
      (turnParts entryParts entryParts) := by
  have hfield (key : Token) := builds_entry (builds_fieldValue hinner key)
    (.field key.text) (fun _ => rfl) entries
  refine .before resting_current.steady fun token => ?_
  split
  · exact .before steady_advance fun _ => .give rfl
  · exact .before (resting_reportOpenObject opening token).steady fun _ =>
      .before (resting_setValueFailed true).steady fun _ => .give rfl
  · exact .before steady_advance fun _ => .give rfl
  · exact .before steady_advance fun _ => .give rfl
  · exact .before steady_advance fun _ => .before (resting_use .spread).steady fun _ =>
      builds_entry (hinner .any) .spread (fun _ => rfl) entries
  · exact .before steady_advance fun _ => hfield token
  · exact .before steady_advance fun _ => hfield token
  · exact .before steady_advance fun _ => hfield token
  · exact .before steady_advance fun _ => hfield token
  · exact .before steady_advance fun _ => hfield token
  · exact .before steady_strayEntry fun _ => .give rfl

theorem builds_objectEntries :
    Builds [] (objectEntries inner) (·.flatMap ObjectEntry.interpolations) := by
  refine .before resting_current.steady fun opening => .before steady_advance fun _ => ?_
  have hloop : Builds (entryParts ([], false)) (iterate ([], false)
      fun (found : List ObjectEntry × Bool) => objectTurn inner opening found.1) entryParts :=
    .iterate fun found => builds_objectTurn hinner opening found.1
  refine .bind hloop ?_
  rintro ⟨entries, closed⟩
  refine .ite (fun _ => ?_) fun _ => .reverse _ entries
  exact .before (resting_setValueFailed false).steady fun _ => .reverse _ entries

omit hinner in
theorem steady_paramName {bound depth : Nat} (rest : Bool) :
    Steady bound depth (paramName rest) :=
  resting_current.steady.bind fun _ => steady_advance.bind fun _ =>
    (steady_eat .comma).bind fun _ => .pure _

omit hinner in
theorem builds_arrowParams : Builds [] arrowParams fun _ => [] := by
  have hturn (params : List ArrowParam) : Builds [] (paramTurn params)
      (turnParts (fun _ => []) fun _ => []) := by
    have hname (rest : Bool) : Builds []
        (do return ForInStep.yield ((← paramName rest) :: params))
        (turnParts (fun _ => []) fun _ => []) :=
      .before (steady_paramName rest) fun _ => .give rfl
    refine .before (steady_eat .rightParen) fun _ => .ite (fun _ => .give rfl) fun _ => ?_
    refine .before (steady_eat .spread) fun rest => .ite (fun _ => ?_) fun _ => hname rest
    exact .before (resting_use .spread).steady fun _ => hname rest
  refine .before resting_current.steady fun token => .before steady_advance fun _ =>
    .ite (fun _ => .give rfl) fun _ => ?_
  exact .bind (.iterate hturn) fun _ => .give rfl

theorem builds_arrow : Builds [] (arrow inner) interpolations := by
  refine .before (resting_use .arrowFunctions).steady fun _ => .bind builds_arrowParams fun _ => ?_
  refine .before (steady_eat .fatArrow) fun _ => .before (resting_check .leftBrace).steady fun _ =>
    .ite (fun _ => ?_) fun _ => ?_
  · exact .before steady_blockText fun _ => .give rfl
  · exact .bind (hinner .any) fun _ => .give rfl

/-! ## Primary values and operators -/

omit hinner in
/-- The one place where an interpolation gets its identifier. -/
theorem builds_interpolation (text : String) :
    Builds [] (interpolation text) interpolations := by
  refine .before (resting_use .interpolation).steady fun _ => ⟨fun hpast => ?_⟩
  intro context state hwithin hreaches
  have hstate := hpast.later hreaches
  rw [List.append_nil] at hstate
  refine Returns.leads ?_
  rw [returns_bind, returns_get, returns_bind, returns_modify, returns_pure]
  have hsame : Same state { state with
      expressions := state.expressions.insert (interpolationId state.expressions) text } :=
    ⟨rfl, rfl, rfl, .single (.interpolation state text)⟩
  exact ⟨hwithin.keeps hsame.keeps, hsame.reaches, hstate.interpolation text⟩

theorem builds_primary : Builds [] (primary inner) interpolations := by
  have hread {value : Value} (h : value.interpolations = []) :
      Builds [] (do advance; return value) interpolations :=
    .before steady_advance fun _ => .give h
  refine .before resting_current.steady fun token => ?_
  split
  · exact hread rfl
  · exact .before (resting_reportUnterminated token).steady fun _ => hread rfl
  · exact hread rfl
  · exact hread rfl
  · exact hread rfl
  · exact .before steady_advance fun _ => builds_interpolation token.text
  · exact .before (resting_peekKind 1).steady fun _ => .ite (fun _ => builds_arrow hinner)
      fun _ => hread rfl
  · refine .before (p := arrowAhead) (resting_get.steady.bind fun _ => .pure _) fun _ =>
      .ite (fun _ => builds_arrow hinner) fun _ => ?_
    exact .before steady_advance fun _ => .bind (hinner .any) fun _ =>
      .before (steady_expectClosing .paren) fun _ => .give rfl
  · refine .before steady_advance fun _ => .bind (builds_sequence hinner .bracket) fun items =>
      .give (Value.interpolationsOfItems_eq items)
  · exact .bind (builds_objectEntries hinner) fun entries =>
      .give (Value.interpolationsOfEntries_eq entries)
  · exact .before (resting_unexpected _).steady fun _ =>
      .before (resting_setValueFailed true).steady fun _ => .before steady_skipValue fun _ =>
        .give rfl

theorem builds_postfixTurn (value : Value) :
    Builds value.interpolations (postfixTurn inner value)
      (turnParts interpolations interpolations) := by
  refine .before resting_current.steady fun token => .before resting_previousLine.steady fun _ => ?_
  dsimp only
  split
  · refine .before steady_advance fun _ => .before resting_current.steady fun name =>
      .ite (fun _ => ?_) fun _ => ?_
    · exact .before steady_advance fun _ => .give rfl
    · exact .before (resting_unexpected _).steady fun _ =>
        .before (resting_setValueFailed true).steady fun _ => .give rfl
  · refine .ite (fun _ => ?_) fun _ => .give rfl
    exact .before steady_advance fun _ => .read (hinner .any) fun key =>
      .before (steady_expectClosing .bracket) fun _ => .give rfl
  · refine .ite (fun _ => ?_) fun _ => .give rfl
    refine .before steady_advance fun _ => .read (builds_sequence hinner .paren) fun args =>
      .give ?_
    exact congrArg (value.interpolations ++ ·) (Value.interpolationsOfItems_eq args)
  · exact .give rfl

theorem builds_unary : Builds [] (unary inner) interpolations := by
  have hpostfixed : Builds [] (postfixed inner) interpolations :=
    .bind (builds_primary hinner) fun _ => .iterate (builds_postfixTurn hinner)
  refine .before (.iterate turning_prefixTurn) fun ops => .bind hpostfixed fun value => .give ?_
  exact Value.interpolations_foldl_unary ops value

theorem builds_conditional : Builds [] (conditional inner) interpolations := by
  have hequality : Builds [] (equality inner) interpolations :=
    builds_chain (builds_chain (builds_chain (builds_chain (builds_unary hinner))))
  refine .before resting_valueFailed.steady fun _ => .bind hequality fun condition =>
    .before resting_valueFailed.steady fun _ => .ite (fun _ => .give rfl) fun _ => ?_
  refine .before (steady_eat .question) fun _ => .ite (fun _ => ?_) fun _ => .give rfl
  refine .read (hinner .any) fun thenBranch => .before (steady_eat .colon) fun _ =>
    .ite (fun _ => ?_) fun _ => ?_
  · exact .read (hinner .conditional) fun elseBranch => .give rfl
  · refine .before (resting_unexpected _).steady fun _ =>
      .before (resting_setValueFailed true).steady fun _ => .give ?_
    exact List.append_nil _

theorem builds_coalesce : Builds [] (coalesce inner) interpolations :=
  builds_chain (builds_chain (builds_chain (builds_conditional hinner)))

end

/-! ## Levels -/

theorem builds_nested (levels : Nat) (strength : Strength) :
    Builds [] (nested levels strength) interpolations := by
  have hrefuse : Builds [] refuseValue interpolations :=
    .before steady_skipValue fun _ => .before (resting_setValueFailed true).steady fun _ =>
      .give rfl
  induction levels generalizing strength with
  | zero => exact .throw
  | succ levels ih =>
      cases strength with
      | any => exact .deeper hrefuse (builds_coalesce ih)
      | conditional => exact .deeper hrefuse (builds_conditional ih)

theorem builds_valueOr {recover : Parser Unit}
    (hrecover : ∀ {bound depth : Nat}, Steady bound depth recover) :
    Builds [] (valueOr recover) interpolations :=
  .before (resting_setValueFailed false).steady fun _ => .bind (builds_nested _ _) fun _ =>
    .before (steady_ifFailed hrecover) fun _ => .give rfl

end Parser

/-! ## Configurations -/

namespace TraitConfig

variable (config : TraitConfig) (one : Interpolation)

theorem count_push (value : Value) : (config.push value).interpolations.count one =
    config.interpolations.count one + value.interpolations.count one := by
  simp only [push, TraitConfig.interpolations, List.flatMap_append, List.flatMap_singleton,
    List.count_append]
  omega

theorem count_insert_le (key : String) (value : Value) :
    (config.insert key value).interpolations.count one ≤
      config.interpolations.count one + value.interpolations.count one := by
  have hinsert := Table.count_gather_insert Value.interpolations key value config.config one
  simp only [insert, TraitConfig.interpolations, List.count_append]
  omega

theorem count_addEntries_le (entries : List ObjectEntry) :
    (entries.foldl addEntry config).interpolations.count one ≤ config.interpolations.count one +
      (entries.flatMap ObjectEntry.interpolations).count one := by
  induction entries generalizing config with
  | nil => exact Nat.le_refl _
  | cons entry rest ih =>
      have hentry : (config.addEntry entry).interpolations.count one ≤
          config.interpolations.count one + entry.interpolations.count one := by
        cases entry with
        | field key value => exact config.count_insert_le one key value
        | spread value => exact Nat.le_of_eq (config.count_push one (.spread value))
      have hrest := ih (config.addEntry entry)
      rw [List.foldl_cons, List.flatMap_cons, List.count_append]
      omega

end TraitConfig

namespace Parser

theorem builds_argument : Builds [] argument interpolations :=
  .bind (builds_valueOr steady_recoverInList) fun _ =>
    .before (resting_setValueFailed false).steady fun _ => .give rfl

theorem builds_argumentTurn (config : TraitConfig) :
    Builds config.interpolations (argumentTurn config)
      (turnParts TraitConfig.interpolations TraitConfig.interpolations) := by
  refine .before resting_current.steady fun token => ?_
  split
  · exact .before steady_advance fun _ => .give rfl
  · exact .before (resting_unexpected _).steady fun _ => .give rfl
  · exact .before steady_advance fun _ => .give rfl
  · refine .before (resting_peekKind 1).steady fun _ => .ite (fun _ => ?_) fun _ => ?_
    · refine .before steady_advance fun _ => .before steady_advance fun _ =>
        .read builds_argument fun value => .pure fun one => ?_
      rw [List.count_append]
      exact config.count_insert_le one token.text value
    · refine .read builds_argument fun value => .before resting_current.steady fun _ => ?_
      have hle (one : Interpolation) : (config.push value).interpolations.count one ≤
          (config.interpolations ++ value.interpolations).count one := by
        rw [List.count_append]
        exact Nat.le_of_eq (config.count_push one value)
      exact .ite (fun _ => .pure hle) fun _ => .pure hle

theorem builds_directiveConfig (allowBody : Bool) :
    Builds [] (directiveConfig allowBody) TraitConfig.interpolations := by
  have harguments (line : Nat) : Builds [] (arguments line) TraitConfig.interpolations := by
    refine .before resting_current.steady fun token => .ite (fun _ => ?_) fun _ => .give rfl
    have hloop : Builds TraitConfig.empty.interpolations (iterate .empty argumentTurn)
        TraitConfig.interpolations := .iterate builds_argumentTurn
    exact .before steady_advance fun _ => hloop
  have htext (line : Nat) (config : TraitConfig) : Builds config.interpolations
      (textTurn line config)
      (turnParts TraitConfig.interpolations TraitConfig.interpolations) := by
    refine .before resting_current.steady fun token => .ite (fun _ => ?_) fun _ => .give rfl
    refine .before steady_advance fun _ => .pure fun one => ?_
    rw [turnParts, config.count_push]
    exact Nat.le_refl _
  refine .before resting_previousLine.steady fun line => .bind (harguments line) fun config =>
    .bind (.iterate (htext line)) fun config =>
      .before (resting_check .leftBrace).steady fun _ => .ite (fun _ => ?_) fun _ => .give rfl
  refine .read (builds_objectEntries (builds_nested _)) fun entries => .pure fun one => ?_
  rw [List.count_append]
  exact config.count_addEntries_le one entries

end Parser
end SceneLang
