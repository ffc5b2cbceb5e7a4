import SceneLang.Proofs.Inventory.Accounts
import SceneLang.Proofs.Parser.Nesting

/-!
# The constructs of values

A spread, a function and an interpolation are noted before the values within them are read.  What a
loop goes on with is made of the items read so far.
-/

namespace SceneLang

open Value (constructs)

theorem Value.constructs_foldl_unary (ops : List UnaryOp) (value : Value) :
    (ops.foldl (fun value op => Value.unary op value) value).constructs = value.constructs := by
  induction ops generalizing value with
  | nil => rfl
  | cons op rest ih => rw [List.foldl_cons, ih, Value.constructs]

theorem flatMap_reverse_subset {α : Type} (parts : α → List Construct) (items : List α) :
    items.reverse.flatMap parts ⊆ items.flatMap parts :=
  ((List.reverse_perm items).flatMap_right parts).subset

namespace Parser

variable {options : ParseOptions}

theorem Accounts.reverse {α : Type} (parts : α → List Construct) (items : List α) :
    Accounts options (items.flatMap parts) (Pure.pure items.reverse) (·.flatMap parts) :=
  .pure (flatMap_reverse_subset parts items)

/-- An item that has been read is put in front of those read before. -/
theorem flatMap_cons_subset {α : Type} (parts : α → List Construct) (item : α) (items : List α) :
    (item :: items).flatMap parts ⊆ items.flatMap parts ++ parts item := by
  simp [List.flatMap_cons]

/-- What is read of a list so far. -/
def itemConstructs (found : List Value × Bool) : List Construct :=
  found.1.flatMap constructs

def entryConstructs (found : List ObjectEntry × Bool) : List Construct :=
  found.1.flatMap ObjectEntry.constructs

section

variable {inner : Inner} (hinner : ∀ strength, Accounts options [] (inner strength) constructs)

/-! ## Operators and lists -/

theorem accounts_chainTurn {operator? : TokenKind → Option BinaryOp} {operand : Parser Value}
    (hoperand : Accounts options [] operand constructs) (left : Value) :
    Accounts options left.constructs (chainTurn operator? operand left)
      (turnConstructs constructs constructs) := by
  apply Accounts.before resting_currentKind.steady
  intro kind
  split
  · exact .give rfl
  · exact .before steady_advance fun _ => .read hoperand fun _ => .give rfl

theorem accounts_chain {operator? : TokenKind → Option BinaryOp} {operand : Parser Value}
    (hoperand : Accounts options [] operand constructs) :
    Accounts options [] (chain operator? operand) constructs :=
  hoperand.bind fun _ => .iterate (accounts_chainTurn hoperand)

include hinner

theorem accounts_sequenceItem : Accounts options [] (sequenceItem inner) constructs := by
  apply Accounts.before (steady_eat .spread)
  intro spread
  apply Accounts.ite
  · intro _
    have huse : Accounts options [] (use .spread) fun _ => [.spread] := accounts_use .spread rfl rfl
    exact huse.bind fun _ => .read (hinner .any) fun _ => .give rfl
  · exact fun _ => hinner .any

omit hinner in
theorem accounts_sequenceNext (delimiter : Delimiter) (items : List Value) :
    Accounts options (items.flatMap constructs) (sequenceNext delimiter items)
      (turnConstructs itemConstructs itemConstructs) := by
  apply Accounts.before (steady_eat .comma)
  intro _
  apply Accounts.ite
  · exact fun _ => .give rfl
  intro _
  apply Accounts.before (resting_check _).steady
  intro _
  apply Accounts.ite
  · exact fun _ => .give rfl
  · exact fun _ => .before (steady_expectClosing delimiter) fun _ => .give rfl

theorem accounts_sequenceTurn (delimiter : Delimiter) (items : List Value) :
    Accounts options (items.flatMap constructs) (sequenceTurn inner delimiter items)
      (turnConstructs itemConstructs itemConstructs) := by
  apply Accounts.before (steady_eat delimiter.closing)
  intro _
  apply Accounts.ite
  · exact fun _ => .give rfl
  intro _
  apply Accounts.before resting_currentKind.steady
  intro _
  apply Accounts.ite
  · exact fun _ => .before (steady_expectClosing delimiter) fun _ => .give rfl
  intro _
  apply Accounts.before (resting_setValueFailed false).steady
  intro _
  apply Accounts.read (accounts_sequenceItem hinner)
  intro item
  apply Accounts.before (steady_ifFailed steady_recoverInList)
  intro _
  exact (accounts_sequenceNext delimiter (item :: items)).of_subset
    (flatMap_cons_subset constructs item items)

theorem accounts_sequence (delimiter : Delimiter) :
    Accounts options [] (sequence inner delimiter) (·.flatMap constructs) := by
  have hloop : Accounts options (itemConstructs ([], false)) (iterate ([], false)
      fun (found : List Value × Bool) => sequenceTurn inner delimiter found.1) itemConstructs :=
    .iterate fun found => accounts_sequenceTurn hinner delimiter found.1
  apply hloop.bind
  rintro ⟨items, closed⟩
  apply Accounts.ite
  · exact fun _ => .before (resting_setValueFailed false).steady fun _ => .reverse _ items
  · exact fun _ => .reverse _ items

/-! ## Objects and functions -/

theorem accounts_fieldValue (key : Token) :
    Accounts options [] (fieldValue inner key) constructs := by
  apply Accounts.before resting_currentKind.steady
  intro kind
  apply Accounts.ite
  · exact fun _ => .before steady_advance fun _ => hinner .any
  intro _
  apply Accounts.ite
  · exact fun _ => .give rfl
  · exact fun _ => .before (resting_report _).steady fun _ => hinner .any

omit hinner in
theorem accounts_entry {given : List Construct} {p : Parser Value}
    (hp : Accounts options [] p constructs) (entry : Value → ObjectEntry)
    (entries : List ObjectEntry)
    (hentry : ∀ value, (entry value :: entries).flatMap ObjectEntry.constructs ⊆
      given ++ value.constructs) :
    Accounts options given (do
        let value ← p
        ifFailed recoverInList
        return ForInStep.yield (entry value :: entries, false))
      (turnConstructs entryConstructs entryConstructs) := by
  apply Accounts.read hp
  intro value
  apply Accounts.before (steady_ifFailed steady_recoverInList)
  exact fun _ => .pure (hentry value)

theorem accounts_objectTurn (opening : Token) (entries : List ObjectEntry) :
    Accounts options (entries.flatMap ObjectEntry.constructs) (objectTurn inner opening entries)
      (turnConstructs entryConstructs entryConstructs) := by
  have hfield (key : Token) := accounts_entry (accounts_fieldValue hinner key)
    (.field key.text) entries fun value => flatMap_cons_subset _ (.field key.text value) entries
  apply Accounts.before resting_current.steady
  intro token
  split
  · exact .before steady_advance fun _ => .give rfl
  · exact .before (resting_reportOpenObject opening token).steady fun _ =>
      .before (resting_setValueFailed true).steady fun _ => .give rfl
  · exact .before steady_advance fun _ => .give rfl
  · exact .before steady_advance fun _ => .give rfl
  · apply Accounts.before steady_advance
    intro _
    apply Accounts.read (accounts_use .spread rfl rfl)
    intro _
    apply accounts_entry (hinner .any)
    intro value
    rw [List.append_assoc]
    exact flatMap_cons_subset _ (.spread value) entries
  · exact .before steady_advance fun _ => hfield token
  · exact .before steady_advance fun _ => hfield token
  · exact .before steady_advance fun _ => hfield token
  · exact .before steady_advance fun _ => hfield token
  · exact .before steady_advance fun _ => hfield token
  · exact .before steady_strayEntry fun _ => .give rfl

theorem accounts_objectEntries :
    Accounts options [] (objectEntries inner) (·.flatMap ObjectEntry.constructs) := by
  apply Accounts.before resting_current.steady
  intro opening
  apply Accounts.before steady_advance
  intro _
  have hloop : Accounts options (entryConstructs ([], false)) (iterate ([], false)
      fun (found : List ObjectEntry × Bool) => objectTurn inner opening found.1) entryConstructs :=
    .iterate fun found => accounts_objectTurn hinner opening found.1
  apply hloop.bind
  rintro ⟨entries, closed⟩
  apply Accounts.ite
  · exact fun _ => .before (resting_setValueFailed false).steady fun _ => .reverse _ entries
  · exact fun _ => .reverse _ entries

omit hinner in
theorem accounts_paramName (rest : Bool) :
    Accounts options (if rest then [.spread] else []) (paramName rest) ArrowParam.constructs := by
  apply Accounts.before resting_current.steady
  intro token
  apply Accounts.before steady_advance
  intro _
  exact .before (steady_eat .comma) fun _ => .give rfl

omit hinner in
/-- A rest parameter is a spread, which is noted at its dots. -/
theorem accounts_paramTurn (params : List ArrowParam) :
    Accounts options (params.flatMap ArrowParam.constructs) (paramTurn params)
      (turnConstructs (·.flatMap ArrowParam.constructs) (·.flatMap ArrowParam.constructs)) := by
  have hname (rest : Bool) : Accounts options
      (params.flatMap ArrowParam.constructs ++ if rest then [.spread] else [])
      (do return ForInStep.yield ((← paramName rest) :: params))
      (turnConstructs (·.flatMap ArrowParam.constructs) (·.flatMap ArrowParam.constructs)) :=
    ((accounts_paramName rest).behind _).bind fun param =>
      .pure (flatMap_cons_subset ArrowParam.constructs param params)
  apply Accounts.before (steady_eat .rightParen)
  intro _
  apply Accounts.ite
  · exact fun _ => .give rfl
  intro _
  apply Accounts.before (steady_eat .spread)
  rintro (_ | _)
  · have hplain := hname false
    rwa [if_neg Bool.false_ne_true, List.append_nil] at hplain
  · exact .read (accounts_use .spread rfl rfl) fun _ => hname true

omit hinner in
theorem accounts_arrowParams :
    Accounts options [] arrowParams (·.flatMap ArrowParam.constructs) := by
  apply Accounts.before resting_current.steady
  intro token
  apply Accounts.before steady_advance
  intro _
  apply Accounts.ite
  · exact fun _ => .give rfl
  · intro _
    have hloop : Accounts options (([] : List ArrowParam).flatMap ArrowParam.constructs)
        (iterate [] paramTurn) (·.flatMap ArrowParam.constructs) := .iterate accounts_paramTurn
    exact hloop.bind (Accounts.reverse _)

theorem accounts_arrow : Accounts options [] (arrow inner) constructs := by
  apply Accounts.read (accounts_use .arrow rfl rfl)
  intro _
  apply Accounts.read accounts_arrowParams
  intro params
  apply Accounts.before (steady_eat .fatArrow)
  intro _
  apply Accounts.before (resting_check .leftBrace).steady
  intro _
  apply Accounts.ite
  · exact fun _ => .before steady_blockText fun _ =>
      .give (congrArg (Construct.arrow :: ·) (List.append_nil _))
  · exact fun _ => .read (hinner .any) fun _ => .give rfl

/-! ## Primary values and operators -/

omit hinner in
theorem accounts_interpolation (text : String) :
    Accounts options [] (interpolation text) constructs := by
  intro source state hstate
  have huse : Accounts options [] (use .interpolation) fun _ => [.interpolation] :=
    accounts_use .interpolation rfl rfl
  refine (huse source state hstate).bind fun _ next ⟨hnext, hreaches⟩ => Returns.leads ?_
  rw [returns_bind, returns_get, returns_bind, returns_modify, returns_pure]
  have hsame : Same next { next with
      expressions := next.expressions.insert (interpolationId next.expressions) text } :=
    ⟨rfl, rfl, rfl, .single (.interpolation next text)⟩
  exact ⟨hnext.keeps hsame.keeps, hreaches.trans hsame.reaches⟩

theorem accounts_primary : Accounts options [] (primary inner) constructs := by
  have hread {value : Value} (h : value.constructs = []) :
      Accounts options [] (do advance; return value) constructs :=
    .before steady_advance fun _ => .give h
  apply Accounts.before resting_current.steady
  intro token
  split
  · exact hread rfl
  · exact .before (resting_reportUnterminated token).steady fun _ => hread rfl
  · exact hread rfl
  · exact hread rfl
  · exact hread rfl
  · exact .before steady_advance fun _ => accounts_interpolation token.text
  · apply Accounts.before (resting_peekKind 1).steady
    exact fun _ => .ite (fun _ => accounts_arrow hinner) fun _ => hread rfl
  · have hahead {bound depth : Nat} : Steady bound depth arrowAhead :=
      resting_get.steady.bind fun _ => .pure _
    apply Accounts.before hahead
    intro _
    apply Accounts.ite
    · exact fun _ => accounts_arrow hinner
    · exact fun _ => .before steady_advance fun _ => .bind (hinner .any) fun _ =>
        .before (steady_expectClosing .paren) fun _ => .give rfl
  · exact .before steady_advance fun _ => .bind (accounts_sequence hinner .bracket) fun items =>
      .give (Value.constructsOfItems_eq items)
  · exact .bind (accounts_objectEntries hinner) fun entries =>
      .give (Value.constructsOfEntries_eq entries)
  · exact .before (resting_unexpected _).steady fun _ =>
      .before (resting_setValueFailed true).steady fun _ => .before steady_skipValue fun _ =>
        .give rfl

theorem accounts_postfixTurn (value : Value) :
    Accounts options value.constructs (postfixTurn inner value)
      (turnConstructs constructs constructs) := by
  apply Accounts.before resting_current.steady
  intro token
  apply Accounts.before resting_previousLine.steady
  intro _
  dsimp only
  split
  · apply Accounts.before steady_advance
    intro _
    apply Accounts.before resting_current.steady
    intro name
    apply Accounts.ite
    · exact fun _ => .before steady_advance fun _ => .give rfl
    · exact fun _ => .before (resting_unexpected _).steady fun _ =>
        .before (resting_setValueFailed true).steady fun _ => .give rfl
  · apply Accounts.ite
    · exact fun _ => .before steady_advance fun _ => .read (hinner .any) fun _ =>
        .before (steady_expectClosing .bracket) fun _ => .give rfl
    · exact fun _ => .give rfl
  · apply Accounts.ite
    · intro _
      apply Accounts.before steady_advance
      intro _
      apply Accounts.read (accounts_sequence hinner .paren)
      intro args
      exact .give (congrArg (value.constructs ++ ·) (Value.constructsOfItems_eq args))
    · exact fun _ => .give rfl
  · exact .give rfl

theorem accounts_unary : Accounts options [] (unary inner) constructs := by
  have hpostfixed : Accounts options [] (postfixed inner) constructs :=
    .bind (accounts_primary hinner) fun _ => .iterate (accounts_postfixTurn hinner)
  apply Accounts.before (.iterate turning_prefixTurn)
  intro ops
  apply hpostfixed.bind
  exact fun value => .give (Value.constructs_foldl_unary ops value)

theorem accounts_conditional : Accounts options [] (conditional inner) constructs := by
  have hequality : Accounts options [] (equality inner) constructs :=
    accounts_chain (accounts_chain (accounts_chain (accounts_chain (accounts_unary hinner))))
  apply Accounts.before resting_valueFailed.steady
  intro _
  apply hequality.bind
  intro condition
  apply Accounts.before resting_valueFailed.steady
  intro _
  apply Accounts.ite
  · exact fun _ => .give rfl
  intro _
  apply Accounts.before (steady_eat .question)
  intro _
  apply Accounts.ite
  · intro _
    apply Accounts.read (hinner .any)
    intro thenBranch
    apply Accounts.before (steady_eat .colon)
    intro _
    apply Accounts.ite
    · exact fun _ => .read (hinner .conditional) fun elseBranch => .give rfl
    · exact fun _ => .before (resting_unexpected _).steady fun _ =>
        .before (resting_setValueFailed true).steady fun _ => .give (List.append_nil _)
  · exact fun _ => .give rfl

theorem accounts_coalesce : Accounts options [] (coalesce inner) constructs :=
  accounts_chain (accounts_chain (accounts_chain (accounts_conditional hinner)))

end

/-! ## Levels -/

theorem accounts_nested (levels : Nat) (strength : Strength) :
    Accounts options [] (nested levels strength) constructs := by
  have hrefuse {given : List Construct} : Accounts options given refuseValue constructs :=
    .before steady_skipValue fun _ => .before (resting_setValueFailed true).steady fun _ =>
      .drop rfl
  induction levels generalizing strength with
  | zero => exact .throw
  | succ levels ih =>
      cases strength with
      | any => exact .deeper hrefuse (accounts_coalesce ih)
      | conditional => exact .deeper hrefuse (accounts_conditional ih)

theorem accounts_valueOr {recover : Parser Unit}
    (hrecover : ∀ {bound depth : Nat}, Steady bound depth recover) :
    Accounts options [] (valueOr recover) constructs :=
  .before (resting_setValueFailed false).steady fun _ => .bind (accounts_nested _ _) fun _ =>
    .before (steady_ifFailed hrecover) fun _ => .give rfl

end Parser

/-! ## Configurations -/

namespace TraitConfig

variable (config : TraitConfig)

theorem constructs_push (value : Value) :
    (config.push value).constructs ⊆ config.constructs ++ value.constructs := by
  intro construct hmem
  simp only [push, TraitConfig.constructs, List.flatMap_append, List.flatMap_singleton,
    List.mem_append] at hmem ⊢
  grind

theorem constructs_insert (key : String) (value : Value) :
    (config.insert key value).constructs ⊆ config.constructs ++ value.constructs := by
  have hinsert := Table.flatMap_insert_subset (fun entry => entry.2.constructs) key value
    config.config
  intro construct hmem
  have hone := @hinsert construct
  simp only [insert, TraitConfig.constructs, Table.gather, List.mem_append] at hmem hone ⊢
  grind

theorem constructs_addEntries (entries : List ObjectEntry) :
    (entries.foldl addEntry config).constructs ⊆
      config.constructs ++ entries.flatMap ObjectEntry.constructs := by
  induction entries generalizing config with
  | nil => exact List.subset_append_left _ _
  | cons entry rest ih =>
      have hentry : (config.addEntry entry).constructs ⊆
          config.constructs ++ entry.constructs := by
        cases entry with
        | field key value => exact config.constructs_insert key value
        | spread value => exact config.constructs_push (.spread value)
      intro construct hmem
      have hone := @hentry construct
      have hrest := ih (config.addEntry entry) hmem
      simp only [List.flatMap_cons, List.mem_append] at hone hrest ⊢
      grind

end TraitConfig

namespace Parser

variable {options : ParseOptions}

theorem accounts_argument : Accounts options [] argument constructs :=
  .bind (accounts_valueOr steady_recoverInList) fun _ =>
    .before (resting_setValueFailed false).steady fun _ => .give rfl

theorem accounts_argumentTurn (config : TraitConfig) :
    Accounts options config.constructs (argumentTurn config)
      (turnConstructs TraitConfig.constructs TraitConfig.constructs) := by
  apply Accounts.before resting_current.steady
  intro token
  split
  · exact .before steady_advance fun _ => .give rfl
  · exact .before (resting_unexpected _).steady fun _ => .give rfl
  · exact .before steady_advance fun _ => .give rfl
  · apply Accounts.before (resting_peekKind 1).steady
    intro _
    apply Accounts.ite
    · exact fun _ => .before steady_advance fun _ => .before steady_advance fun _ =>
        .read accounts_argument fun value => .pure (config.constructs_insert token.text value)
    · intro _
      apply Accounts.read accounts_argument
      intro value
      apply Accounts.before resting_current.steady
      exact fun _ => .ite (fun _ => .pure (config.constructs_push value)) fun _ =>
        .pure (config.constructs_push value)

theorem accounts_directiveConfig (allowBody : Bool) :
    Accounts options [] (directiveConfig allowBody) TraitConfig.constructs := by
  have harguments (line : Nat) : Accounts options [] (arguments line) TraitConfig.constructs := by
    apply Accounts.before resting_current.steady
    intro token
    have hloop : Accounts options TraitConfig.empty.constructs (iterate .empty argumentTurn)
        TraitConfig.constructs := .iterate accounts_argumentTurn
    exact .ite (fun _ => .before steady_advance fun _ => hloop) fun _ => .give rfl
  have htext (line : Nat) (config : TraitConfig) : Accounts options config.constructs
      (textTurn line config) (turnConstructs TraitConfig.constructs TraitConfig.constructs) := by
    apply Accounts.before resting_current.steady
    intro token
    apply Accounts.ite
    · intro _
      have hpush := config.constructs_push (.string token.text)
      rw [show (Value.string token.text).constructs = [] from rfl, List.append_nil] at hpush
      exact .before steady_advance fun _ => .pure hpush
    · exact fun _ => .give rfl
  apply Accounts.before resting_previousLine.steady
  intro line
  apply (harguments line).bind
  intro config
  apply Accounts.bind (.iterate (htext line))
  intro config
  apply Accounts.before (resting_check .leftBrace).steady
  intro _
  apply Accounts.ite
  · exact fun _ => .read (accounts_objectEntries (accounts_nested _)) fun entries =>
      .pure (config.constructs_addEntries entries)
  · exact fun _ => .give rfl

end Parser

end SceneLang
