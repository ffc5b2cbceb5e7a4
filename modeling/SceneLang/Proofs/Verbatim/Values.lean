import SceneLang.Proofs.Parser.Nesting
import SceneLang.Proofs.Verbatim.Quotes

/-!
# The bodies of values

Of values only functions have bodies of their own.  Lists, objects and operators hold the bodies of
what they are made of, so that a loop over items goes on with the bodies of the items read so far.
-/

namespace SceneLang
namespace Parser

open Value (rawBodies)

variable {source : List Char}

theorem Quotes.reverse {α : Type} (parts : α → List RawBody) (items : List α) :
    Quotes source (items.flatMap parts) (Pure.pure items.reverse) (·.flatMap parts) :=
  .pure ((List.reverse_perm items).flatMap_right parts).subset

/-- An item that has been read is put in front of those read before. -/
theorem flatMap_bodies_cons {α : Type} (parts : α → List RawBody) (item : α) (items : List α) :
    (item :: items).flatMap parts ⊆ items.flatMap parts ++ parts item := by
  simp [List.flatMap_cons]

/-- What is read of a list so far. -/
def itemBodies (found : List Value × Bool) : List RawBody :=
  found.1.flatMap rawBodies

def entryBodies (found : List ObjectEntry × Bool) : List RawBody :=
  found.1.flatMap ObjectEntry.rawBodies

section

variable {inner : Inner} (hinner : ∀ strength, Quotes source [] (inner strength) rawBodies)

/-! ## Operators and lists -/

theorem quotes_chain {operator? : TokenKind → Option BinaryOp} {operand : Parser Value}
    (hoperand : Quotes source [] operand rawBodies) :
    Quotes source [] (chain operator? operand) rawBodies := by
  refine hoperand.bind fun _ => .iterate fun left =>
    .before resting_currentKind.steady fun kind => ?_
  split
  · exact .give rfl
  · exact .before steady_advance fun _ => .read hoperand fun _ => .give rfl

include hinner

theorem quotes_sequenceItem : Quotes source [] (sequenceItem inner) rawBodies := by
  apply Quotes.before (steady_eat .spread)
  intro spread
  apply Quotes.ite
  · exact fun _ => .before (resting_use .spread).steady fun _ => .bind (hinner .any) fun _ =>
      .give rfl
  · exact fun _ => hinner .any

omit hinner in
theorem quotes_sequenceNext (delimiter : Delimiter) (items : List Value) :
    Quotes source (items.flatMap rawBodies) (sequenceNext delimiter items)
      (turnBodies itemBodies itemBodies) := by
  apply Quotes.before (steady_eat .comma)
  intro _
  apply Quotes.ite
  · exact fun _ => .give rfl
  intro _
  apply Quotes.before (resting_check _).steady
  intro _
  apply Quotes.ite
  · exact fun _ => .give rfl
  · exact fun _ => .before (steady_expectClosing delimiter) fun _ => .give rfl

theorem quotes_sequenceTurn (delimiter : Delimiter) (items : List Value) :
    Quotes source (items.flatMap rawBodies) (sequenceTurn inner delimiter items)
      (turnBodies itemBodies itemBodies) := by
  apply Quotes.before (steady_eat delimiter.closing)
  intro _
  apply Quotes.ite
  · exact fun _ => .give rfl
  intro _
  apply Quotes.before resting_currentKind.steady
  intro _
  apply Quotes.ite
  · exact fun _ => .before (steady_expectClosing delimiter) fun _ => .give rfl
  intro _
  apply Quotes.before (resting_setValueFailed false).steady
  intro _
  apply Quotes.read (quotes_sequenceItem hinner)
  intro item
  apply Quotes.before (steady_ifFailed steady_recoverInList)
  intro _
  exact (quotes_sequenceNext delimiter (item :: items)).of_subset
    (flatMap_bodies_cons rawBodies item items)

theorem quotes_sequence (delimiter : Delimiter) :
    Quotes source [] (sequence inner delimiter) (·.flatMap rawBodies) := by
  have hloop : Quotes source (itemBodies ([], false)) (iterate ([], false)
      fun (found : List Value × Bool) => sequenceTurn inner delimiter found.1) itemBodies :=
    .iterate fun found => quotes_sequenceTurn hinner delimiter found.1
  apply hloop.bind
  rintro ⟨items, closed⟩
  apply Quotes.ite
  · exact fun _ => .before (resting_setValueFailed false).steady fun _ => .reverse _ items
  · exact fun _ => .reverse _ items

/-! ## Objects and functions -/

theorem quotes_fieldValue (key : Token) : Quotes source [] (fieldValue inner key) rawBodies := by
  apply Quotes.before resting_currentKind.steady
  intro kind
  apply Quotes.ite
  · exact fun _ => .before steady_advance fun _ => hinner .any
  intro _
  apply Quotes.ite
  · exact fun _ => .give rfl
  · exact fun _ => .before (resting_report _).steady fun _ => hinner .any

omit hinner in
theorem quotes_entry {p : Parser Value} (hp : Quotes source [] p rawBodies)
    (entry : Value → ObjectEntry) (hentry : ∀ value, (entry value).rawBodies = value.rawBodies)
    (entries : List ObjectEntry) : Quotes source (entries.flatMap ObjectEntry.rawBodies) (do
        let value ← p
        ifFailed recoverInList
        return ForInStep.yield (entry value :: entries, false))
      (turnBodies entryBodies entryBodies) := by
  apply Quotes.read hp
  intro value
  apply Quotes.before (steady_ifFailed steady_recoverInList)
  intro _
  apply Quotes.pure
  rw [← hentry value]
  exact flatMap_bodies_cons ObjectEntry.rawBodies (entry value) entries

theorem quotes_objectTurn (opening : Token) (entries : List ObjectEntry) :
    Quotes source (entries.flatMap ObjectEntry.rawBodies) (objectTurn inner opening entries)
      (turnBodies entryBodies entryBodies) := by
  have hfield (key : Token) := quotes_entry (quotes_fieldValue hinner key) (.field key.text)
    (fun _ => rfl) entries
  apply Quotes.before resting_current.steady
  intro token
  split
  · exact .before steady_advance fun _ => .give rfl
  · exact .before (resting_reportOpenObject opening token).steady fun _ =>
      .before (resting_setValueFailed true).steady fun _ => .give rfl
  · exact .before steady_advance fun _ => .give rfl
  · exact .before steady_advance fun _ => .give rfl
  · exact .before steady_advance fun _ => .before (resting_use .spread).steady fun _ =>
      quotes_entry (hinner .any) .spread (fun _ => rfl) entries
  · exact .before steady_advance fun _ => hfield token
  · exact .before steady_advance fun _ => hfield token
  · exact .before steady_advance fun _ => hfield token
  · exact .before steady_advance fun _ => hfield token
  · exact .before steady_advance fun _ => hfield token
  · exact .before steady_strayEntry fun _ => .give rfl

theorem quotes_objectEntries :
    Quotes source [] (objectEntries inner) (·.flatMap ObjectEntry.rawBodies) := by
  apply Quotes.before resting_current.steady
  intro opening
  apply Quotes.before steady_advance
  intro _
  have hloop : Quotes source (entryBodies ([], false)) (iterate ([], false)
      fun (found : List ObjectEntry × Bool) => objectTurn inner opening found.1) entryBodies :=
    .iterate fun found => quotes_objectTurn hinner opening found.1
  apply hloop.bind
  rintro ⟨entries, closed⟩
  apply Quotes.ite
  · exact fun _ => .before (resting_setValueFailed false).steady fun _ => .reverse _ entries
  · exact fun _ => .reverse _ entries

omit hinner in
theorem quotes_arrowParams : Quotes source [] arrowParams fun _ => [] := by
  apply Quotes.before resting_current.steady
  intro token
  apply Quotes.before steady_advance
  intro _
  have hname (rest : Bool) (params : List ArrowParam) : Quotes source []
      (do return ForInStep.yield ((← paramName rest) :: params))
      (turnBodies (fun _ => []) fun _ => []) :=
    have hparam : Quotes source [] (paramName rest) fun _ => [] :=
      .before resting_current.steady fun _ => .before steady_advance fun _ =>
        .before (steady_eat .comma) fun _ => .give rfl
    hparam.bind fun _ => .give rfl
  have hturn (params : List ArrowParam) : Quotes source [] (paramTurn params)
      (turnBodies (fun _ => []) fun _ => []) := by
    apply Quotes.before (steady_eat .rightParen)
    intro _
    apply Quotes.ite
    · exact fun _ => .give rfl
    intro _
    apply Quotes.before (steady_eat .spread)
    rintro (_ | _)
    · exact hname false params
    · exact .before (resting_use .spread).steady fun _ => hname true params
  have hloop : Quotes source [] (iterate [] paramTurn) fun _ => [] := .iterate hturn
  exact .ite (fun _ => .give rfl) fun _ => hloop.bind fun _ => .give rfl

/-- The body of a function is a value or a block. -/
theorem quotes_arrow : Quotes source [] (arrow inner) rawBodies := by
  apply Quotes.before (resting_use .arrowFunctions).steady
  intro _
  apply quotes_arrowParams.bind
  intro params
  apply Quotes.before (steady_eat .fatArrow)
  intro _
  apply Quotes.before (resting_check .leftBrace).steady
  intro _
  apply Quotes.ite
  · exact fun _ => .bind (quotes_blockText true) fun _ => .give rfl
  · exact fun _ => .bind (hinner .any) fun _ => .give rfl

/-! ## Primary values and operators -/

omit hinner in
theorem quotes_interpolation (text : String) :
    Quotes source [] (interpolation text) rawBodies := by
  intro past _ options state hstands _ _
  refine (returns_use .interpolation state).leads.bind fun _ next hsame => Returns.leads ?_
  rw [returns_bind, returns_get, returns_bind, returns_modify, returns_pure]
  have hnoted : Same next { next with
      expressions := next.expressions.insert (interpolationId next.expressions) text } :=
    ⟨rfl, rfl, rfl, .single (.interpolation next text)⟩
  have hlast := hsame.trans hnoted
  exact ⟨hstands.keeps hlast.keeps, hlast.reaches, .nil⟩

theorem quotes_primary : Quotes source [] (primary inner) rawBodies := by
  have hread {value : Value} (h : value.rawBodies = []) :
      Quotes source [] (do advance; return value) rawBodies :=
    .before steady_advance fun _ => .give h
  apply Quotes.before resting_current.steady
  intro token
  split
  · exact hread rfl
  · exact .before (resting_reportUnterminated token).steady fun _ => hread rfl
  · exact hread rfl
  · exact hread rfl
  · exact hread rfl
  · exact .before steady_advance fun _ => quotes_interpolation token.text
  · apply Quotes.before (resting_peekKind 1).steady
    exact fun _ => .ite (fun _ => quotes_arrow hinner) fun _ => hread rfl
  · have hahead {bound depth : Nat} : Steady bound depth arrowAhead :=
      resting_get.steady.bind fun _ => .pure _
    apply Quotes.before hahead
    intro _
    apply Quotes.ite
    · exact fun _ => quotes_arrow hinner
    · exact fun _ => .before steady_advance fun _ => .bind (hinner .any) fun _ =>
        .before (steady_expectClosing .paren) fun _ => .give rfl
  · exact .before steady_advance fun _ => .bind (quotes_sequence hinner .bracket) fun items =>
      .give (Value.rawBodiesOfItems_eq items)
  · exact .bind (quotes_objectEntries hinner) fun entries =>
      .give (Value.rawBodiesOfEntries_eq entries)
  · exact .before (resting_unexpected _).steady fun _ =>
      .before (resting_setValueFailed true).steady fun _ => .before steady_skipValue fun _ =>
        .give rfl

theorem quotes_postfixTurn (value : Value) :
    Quotes source value.rawBodies (postfixTurn inner value) (turnBodies rawBodies rawBodies) := by
  apply Quotes.before resting_current.steady
  intro token
  apply Quotes.before resting_previousLine.steady
  intro _
  dsimp only
  split
  · apply Quotes.before steady_advance
    intro _
    apply Quotes.before resting_current.steady
    intro name
    apply Quotes.ite
    · exact fun _ => .before steady_advance fun _ => .give rfl
    · exact fun _ => .before (resting_unexpected _).steady fun _ =>
        .before (resting_setValueFailed true).steady fun _ => .give rfl
  · apply Quotes.ite
    · exact fun _ => .before steady_advance fun _ => .read (hinner .any) fun _ =>
        .before (steady_expectClosing .bracket) fun _ => .give rfl
    · exact fun _ => .give rfl
  · apply Quotes.ite
    · intro _
      apply Quotes.before steady_advance
      intro _
      apply Quotes.read (quotes_sequence hinner .paren)
      intro args
      exact .give (congrArg (value.rawBodies ++ ·) (Value.rawBodiesOfItems_eq args))
    · exact fun _ => .give rfl
  · exact .give rfl

theorem quotes_unary : Quotes source [] (unary inner) rawBodies := by
  have hpostfixed : Quotes source [] (postfixed inner) rawBodies :=
    .bind (quotes_primary hinner) fun _ => .iterate (quotes_postfixTurn hinner)
  apply Quotes.before (.iterate turning_prefixTurn)
  intro ops
  apply hpostfixed.bind
  exact fun value => .give (Value.rawBodies_foldl_unary ops value)

theorem quotes_conditional : Quotes source [] (conditional inner) rawBodies := by
  have hequality : Quotes source [] (equality inner) rawBodies :=
    quotes_chain (quotes_chain (quotes_chain (quotes_chain (quotes_unary hinner))))
  apply Quotes.before resting_valueFailed.steady
  intro _
  apply hequality.bind
  intro condition
  apply Quotes.before resting_valueFailed.steady
  intro _
  apply Quotes.ite
  · exact fun _ => .give rfl
  intro _
  apply Quotes.before (steady_eat .question)
  intro _
  apply Quotes.ite
  · intro _
    apply Quotes.read (hinner .any)
    intro thenBranch
    apply Quotes.before (steady_eat .colon)
    intro _
    apply Quotes.ite
    · exact fun _ => .read (hinner .conditional) fun elseBranch => .give rfl
    · exact fun _ => .before (resting_unexpected _).steady fun _ =>
        .before (resting_setValueFailed true).steady fun _ => .give (List.append_nil _)
  · exact fun _ => .give rfl

theorem quotes_coalesce : Quotes source [] (coalesce inner) rawBodies :=
  quotes_chain (quotes_chain (quotes_chain (quotes_conditional hinner)))

end

/-! ## Levels -/

theorem quotes_nested (levels : Nat) (strength : Strength) :
    Quotes source [] (nested levels strength) rawBodies := by
  have hrefuse : Quotes source [] refuseValue rawBodies :=
    .before steady_skipValue fun _ => .before (resting_setValueFailed true).steady fun _ =>
      .give rfl
  induction levels generalizing strength with
  | zero => exact .throw
  | succ levels ih =>
      cases strength with
      | any => exact .deeper hrefuse (quotes_coalesce ih)
      | conditional => exact .deeper hrefuse (quotes_conditional ih)

theorem quotes_valueOr {recover : Parser Unit}
    (hrecover : ∀ {bound depth : Nat}, Steady bound depth recover) :
    Quotes source [] (valueOr recover) rawBodies :=
  .before (resting_setValueFailed false).steady fun _ => .bind (quotes_nested _ _) fun _ =>
    .before (steady_ifFailed hrecover) fun _ => .give rfl

/-! ## Configurations -/

theorem quotes_argument : Quotes source [] argument rawBodies :=
  .bind (quotes_valueOr steady_recoverInList) fun _ =>
    .before (resting_setValueFailed false).steady fun _ => .give rfl

theorem quotes_argumentTurn (config : TraitConfig) :
    Quotes source config.rawBodies (argumentTurn config)
      (turnBodies TraitConfig.rawBodies TraitConfig.rawBodies) := by
  apply Quotes.before resting_current.steady
  intro token
  split
  · exact .before steady_advance fun _ => .give rfl
  · exact .before (resting_unexpected _).steady fun _ => .give rfl
  · exact .before steady_advance fun _ => .give rfl
  · apply Quotes.before (resting_peekKind 1).steady
    intro _
    apply Quotes.ite
    · exact fun _ => .before steady_advance fun _ => .before steady_advance fun _ =>
        .read quotes_argument fun value => .pure (config.rawBodies_insert token.text value)
    · intro _
      apply Quotes.read quotes_argument
      intro value
      apply Quotes.before resting_current.steady
      exact fun _ => .ite (fun _ => .pure (config.rawBodies_push value)) fun _ =>
        .pure (config.rawBodies_push value)

theorem quotes_directiveConfig (allowBody : Bool) :
    Quotes source [] (directiveConfig allowBody) TraitConfig.rawBodies := by
  have harguments (line : Nat) : Quotes source [] (arguments line) TraitConfig.rawBodies := by
    apply Quotes.before resting_current.steady
    intro token
    have hloop : Quotes source TraitConfig.empty.rawBodies (iterate .empty argumentTurn)
        TraitConfig.rawBodies := .iterate quotes_argumentTurn
    exact .ite (fun _ => .before steady_advance fun _ => hloop) fun _ => .give rfl
  have htext (line : Nat) (config : TraitConfig) : Quotes source config.rawBodies
      (textTurn line config) (turnBodies TraitConfig.rawBodies TraitConfig.rawBodies) := by
    apply Quotes.before resting_current.steady
    intro token
    apply Quotes.ite
    · intro _
      have hpush := config.rawBodies_push (.string token.text)
      rw [show (Value.string token.text).rawBodies = [] from rfl, List.append_nil] at hpush
      exact .before steady_advance fun _ => .pure hpush
    · exact fun _ => .give rfl
  apply Quotes.before resting_previousLine.steady
  intro line
  apply (harguments line).bind
  intro config
  apply Quotes.bind (.iterate (htext line))
  intro config
  apply Quotes.before (resting_check .leftBrace).steady
  intro _
  apply Quotes.ite
  · exact fun _ => .read (quotes_objectEntries (quotes_nested _)) fun entries =>
      .pure (config.rawBodies_addEntries entries)
  · exact fun _ => .give rfl

end Parser
end SceneLang
