import SceneLang.Proofs.Strict.Paces

/-!
# Values in strict and lenient parses

Names, blocks, values and arguments have no words that could be unknown.  Parsers of them do not
tell strict parses from lenient ones.
-/

namespace SceneLang
namespace Parser

variable {α β : Type}

/-! ## Names and blocks -/

theorem blind_expectName (what : String) : Blind (expectName what) := by
  refine blind_current.andThen fun token => ?_
  split
  · exact blind_advance.andThen fun _ => blind_pure _
  · exact blind_advance.andThen fun _ => blind_pure _
  · exact (blind_reportUnterminated _).andThen fun _ => blind_advance.andThen fun _ => blind_pure _
  · exact (blind_unexpected _).andThen fun _ => blind_pure _

section

variable {base : Prop} {kin : β → β → Prop}

theorem paces_bracedItem {item item' : Parser β} (hitem : Paces base kin item item') :
    Paces base (Paces.Turn kin) (bracedItem item) (bracedItem item') := by
  refine .get fun state _ => hitem.bind fun value value' hvalue => ?_
  have hyield : Paces (base ∧ value = value') (Paces.Turn kin) (pure (.yield value))
      (pure (.yield value')) :=
    .pure (.yield hvalue) fun hsame => congrArg ForInStep.yield hsame.2
  refine .get fun next _ => .ite (fun _ => ?_) fun _ => hyield
  refine blind_currentKind.andThen fun kind => .ite (fun _ => hyield) fun _ => ?_
  exact blind_advance.andThen fun _ => hyield

theorem paces_bracedTurn {opening : Token} {item item' : β → Parser β}
    (hitem : ∀ value value', kin value value' →
      Paces (value = value') kin (item value) (item' value')) {value value' : β}
    (hvalue : kin value value') :
    Paces (value = value') (Paces.Turn kin) (bracedTurn opening item value)
      (bracedTurn opening item' value') := by
  have hdone : Paces (value = value') (Paces.Turn kin) (pure (.done value))
      (pure (.done value')) := .pure (.done hvalue) (congrArg ForInStep.done)
  have hyield : Paces (value = value') (Paces.Turn kin) (pure (.yield value))
      (pure (.yield value')) := .pure (.yield hvalue) (congrArg ForInStep.yield)
  refine blind_currentKind.andThen fun kind => ?_
  split
  · exact blind_advance.andThen fun _ => hdone
  · exact (blind_reportUnclosed opening).andThen fun _ => hdone
  · exact blind_advance.andThen fun _ => hyield
  · exact blind_advance.andThen fun _ => hyield
  · exact paces_bracedItem (hitem value value' hvalue)

theorem paces_braced {start start' : β} {item item' : β → Parser β} (hstart : kin start start')
    (hitem : ∀ value value', kin value value' →
      Paces (value = value') kin (item value) (item' value')) :
    Paces (start = start') kin (braced start item) (braced start' item') := by
  refine blind_current.andThen fun opening => (blind_eat _).andThen fun found => ?_
  refine .ite (fun _ => ?_) fun _ => (blind_unexpected _).andThen fun _ => .pure hstart id
  exact .iterate hstart fun _ _ hvalue => paces_bracedTurn hitem hvalue

theorem blind_braced {start : β} {item : β → Parser β} (hitem : ∀ value, Blind (item value)) :
    Blind (braced start item) := by
  refine (paces_braced rfl ?_).of_imp fun _ => rfl
  rintro value _ rfl
  exact (hitem value).of_imp fun _ => trivial

end

theorem blind_captureBlock : Blind captureBlock := by
  refine blind_current.andThen fun opening => .ite (fun _ => ?_) fun _ => ?_
  · refine blind_skipBalanced.andThen fun closed => .ite (fun _ => ?_) fun _ => ?_
    · exact blind_previousSpan.andThen fun _ => (blind_sliceBetween _ _).andThen fun _ =>
        blind_pure _
    · exact (blind_reportUnclosed opening).andThen fun _ => .read fun _ _ =>
        (blind_sliceBetween _ _).andThen fun _ => blind_pure _
  · exact (blind_unexpected _).andThen fun _ => blind_pure _

theorem blind_blockText : Blind blockText :=
  blind_captureBlock.andThen fun _ => blind_pure _

theorem blind_paramListTurn (params : List String) : Blind (paramListTurn params) := by
  refine blind_current.andThen fun token => ?_
  split
  · exact blind_advance.andThen fun _ => blind_pure _
  · exact blind_advance.andThen fun _ => blind_pure _
  · refine blind_advance.andThen fun _ => blind_current.andThen fun _ => ?_
    exact .ite (fun _ => blind_advance.andThen fun _ => blind_pure _) fun _ => blind_pure _
  · exact blind_advance.andThen fun _ => blind_pure _
  · exact (blind_unexpected _).andThen fun _ => (blind_skipToClosing _).andThen fun _ =>
      blind_pure _

theorem blind_paramList : Blind paramList :=
  (blind_eat _).andThen fun _ => .ite
    (fun _ => (blind_iterate blind_paramListTurn).andThen fun _ => blind_pure _)
    fun _ => blind_pure _

/-! ## Lists and objects -/

theorem blind_expectClosing (delimiter : Delimiter) : Blind (expectClosing delimiter) :=
  (blind_eat _).andThen fun _ => .ite (fun _ => blind_pure _) fun _ =>
    (blind_unexpected _).andThen fun _ => blind_setValueFailed true

theorem blind_chain {operator? : TokenKind → Option BinaryOp} {operand : Parser Value}
    (hoperand : Blind operand) : Blind (chain operator? operand) := by
  refine hoperand.andThen fun left => blind_iterate fun left => blind_currentKind.andThen fun kind => ?_
  split
  · exact blind_pure _
  · exact blind_advance.andThen fun _ => hoperand.andThen fun _ => blind_pure _

section

variable {inner : Inner} (hinner : ∀ strength, Blind (inner strength))
include hinner

theorem blind_sequenceItem : Blind (sequenceItem inner) :=
  (blind_eat _).andThen fun _ => .ite
    (fun _ => (blind_use _).andThen fun _ => (hinner .any).andThen fun _ => blind_pure _)
    fun _ => hinner .any

omit hinner in
theorem blind_sequenceNext (delimiter : Delimiter) (items : List Value) :
    Blind (sequenceNext delimiter items) :=
  (blind_eat _).andThen fun _ => .ite (fun _ => blind_pure _) fun _ =>
    (blind_check _).andThen fun _ => .ite (fun _ => blind_pure _) fun _ =>
      (blind_expectClosing delimiter).andThen fun _ => blind_pure _

theorem blind_sequenceTurn (delimiter : Delimiter) (items : List Value) :
    Blind (sequenceTurn inner delimiter items) := by
  refine (blind_eat _).andThen fun _ => .ite (fun _ => blind_pure _) fun _ => ?_
  refine blind_currentKind.andThen fun _ => .ite (fun _ => ?_) fun _ => ?_
  · exact (blind_expectClosing delimiter).andThen fun _ => blind_pure _
  · exact (blind_setValueFailed false).andThen fun _ => (blind_sequenceItem hinner).andThen
      fun _ => (blind_ifFailed blind_recoverInList).andThen fun _ => blind_sequenceNext delimiter _

theorem blind_sequence (delimiter : Delimiter) : Blind (sequence inner delimiter) := by
  refine Paces.andThen (blind_iterate ?_) ?_
  · rintro ⟨items, closed⟩
    exact blind_sequenceTurn hinner delimiter items
  rintro ⟨items, closed⟩
  exact .ite (fun _ => (blind_setValueFailed false).andThen fun _ => blind_pure _)
    fun _ => blind_pure _

theorem blind_fieldValue (key : Token) : Blind (fieldValue inner key) :=
  blind_currentKind.andThen fun _ => .ite (fun _ => blind_advance.andThen fun _ => hinner .any)
    fun _ => .ite (fun _ => blind_pure _) fun _ => (blind_report _).andThen fun _ => hinner .any

omit hinner in
theorem blind_strayEntry : Blind strayEntry := by
  refine blind_currentKind.andThen fun _ => (blind_unexpected _).andThen fun _ => ?_
  refine (blind_setValueFailed true).andThen fun _ => .ite (fun _ => ?_) fun _ => ?_
  · exact blind_advance.andThen fun _ => blind_recoverInList
  · exact blind_skipValue.andThen fun _ => blind_recoverInList

omit hinner in
theorem blind_reportOpenObject (opening last : Token) : Blind (reportOpenObject opening last) :=
  blind_endPosition.andThen fun _ => blind_report _

theorem blind_objectTurn (opening : Token) (entries : List ObjectEntry) :
    Blind (objectTurn inner opening entries) := by
  have hfield (key : Token) : Blind do
      let value ← fieldValue inner key
      ifFailed recoverInList
      return ForInStep.yield (ObjectEntry.field key.text value :: entries, false) :=
    (blind_fieldValue hinner key).andThen fun _ =>
      (blind_ifFailed blind_recoverInList).andThen fun _ => blind_pure _
  refine blind_current.andThen fun token => ?_
  split
  · exact blind_advance.andThen fun _ => blind_pure _
  · exact (blind_reportOpenObject opening token).andThen fun _ =>
      (blind_setValueFailed true).andThen fun _ => blind_pure _
  · exact blind_advance.andThen fun _ => blind_pure _
  · exact blind_advance.andThen fun _ => blind_pure _
  · exact blind_advance.andThen fun _ => (blind_use _).andThen fun _ =>
      (hinner .any).andThen fun _ =>
        (blind_ifFailed blind_recoverInList).andThen fun _ => blind_pure _
  · exact blind_advance.andThen fun _ => hfield token
  · exact blind_advance.andThen fun _ => hfield token
  · exact blind_advance.andThen fun _ => hfield token
  · exact blind_advance.andThen fun _ => hfield token
  · exact blind_advance.andThen fun _ => hfield token
  · exact blind_strayEntry.andThen fun _ => blind_pure _

theorem blind_objectEntries : Blind (objectEntries inner) := by
  refine blind_current.andThen fun opening => blind_advance.andThen fun _ => ?_
  refine Paces.andThen (blind_iterate ?_) ?_
  · rintro ⟨entries, closed⟩
    exact blind_objectTurn hinner opening entries
  rintro ⟨entries, closed⟩
  exact .ite (fun _ => (blind_setValueFailed false).andThen fun _ => blind_pure _)
    fun _ => blind_pure _

/-! ## Functions -/

omit hinner in
theorem blind_arrowAhead : Blind arrowAhead := by
  refine .get fun state log => ?_
  rw [State.visibleFrom_withLog]
  exact blind_pure _

omit hinner in
theorem blind_paramName (rest : Bool) : Blind (paramName rest) :=
  blind_current.andThen fun _ => blind_advance.andThen fun _ =>
    (blind_eat _).andThen fun _ => blind_pure _

omit hinner in
theorem blind_paramTurn (params : List ArrowParam) : Blind (paramTurn params) := by
  refine (blind_eat _).andThen fun _ => .ite (fun _ => blind_pure _) fun _ => ?_
  refine (blind_eat _).andThen fun rest => .ite (fun _ => ?_) fun _ => ?_
  · exact (blind_use _).andThen fun _ => (blind_paramName rest).andThen fun _ => blind_pure _
  · exact (blind_paramName rest).andThen fun _ => blind_pure _

omit hinner in
theorem blind_arrowParams : Blind arrowParams :=
  blind_current.andThen fun _ => blind_advance.andThen fun _ => .ite (fun _ => blind_pure _)
    fun _ => (blind_iterate blind_paramTurn).andThen fun _ => blind_pure _

theorem blind_arrow : Blind (arrow inner) := by
  refine (blind_use _).andThen fun _ => blind_arrowParams.andThen fun params => ?_
  refine (blind_eat _).andThen fun _ => (blind_check _).andThen fun _ => .ite (fun _ => ?_) fun _ => ?_
  · exact blind_blockText.andThen fun _ => blind_pure _
  · exact (hinner .any).andThen fun _ => blind_pure _

/-! ## Primary values -/

omit hinner in
theorem blind_interpolation (text : String) : Blind (interpolation text) :=
  (blind_use _).andThen fun _ => .get fun _ _ =>
    Paces.andThen (blind_modify (fun _ => rfl) fun _ _ => rfl) fun _ => blind_pure _

theorem blind_primary : Blind (primary inner) := by
  refine blind_current.andThen fun token => ?_
  split
  · exact blind_advance.andThen fun _ => blind_pure _
  · exact (blind_reportUnterminated token).andThen fun _ =>
      blind_advance.andThen fun _ => blind_pure _
  · exact blind_advance.andThen fun _ => blind_pure _
  · exact blind_advance.andThen fun _ => blind_pure _
  · exact blind_advance.andThen fun _ => blind_pure _
  · exact blind_advance.andThen fun _ => blind_interpolation _
  · refine (blind_peekKind 1).andThen fun _ => .ite (fun _ => blind_arrow hinner) fun _ => ?_
    exact blind_advance.andThen fun _ => blind_pure _
  · refine blind_arrowAhead.andThen fun _ => .ite (fun _ => blind_arrow hinner) fun _ => ?_
    exact blind_advance.andThen fun _ => (hinner .any).andThen fun _ =>
      (blind_expectClosing _).andThen fun _ => blind_pure _
  · exact blind_advance.andThen fun _ => (blind_sequence hinner .bracket).andThen fun _ =>
      blind_pure _
  · exact (blind_objectEntries hinner).andThen fun _ => blind_pure _
  · exact (blind_unexpected _).andThen fun _ => (blind_setValueFailed true).andThen fun _ =>
      blind_skipValue.andThen fun _ => blind_pure _

/-! ## Operators -/

theorem blind_postfixTurn (value : Value) : Blind (postfixTurn inner value) := by
  refine blind_current.andThen fun token => blind_previousLine.andThen fun line => ?_
  dsimp only
  split
  · refine blind_advance.andThen fun _ => blind_current.andThen fun name => .ite (fun _ => ?_) ?_
    · exact blind_advance.andThen fun _ => blind_pure _
    · exact fun _ => (blind_unexpected _).andThen fun _ =>
        (blind_setValueFailed true).andThen fun _ => blind_pure _
  · refine .ite (fun _ => ?_) fun _ => blind_pure _
    exact blind_advance.andThen fun _ => (hinner .any).andThen fun _ =>
      (blind_expectClosing _).andThen fun _ => blind_pure _
  · refine .ite (fun _ => ?_) fun _ => blind_pure _
    exact blind_advance.andThen fun _ => (blind_sequence hinner .paren).andThen fun _ =>
      blind_pure _
  · exact blind_pure _

omit hinner in
theorem blind_prefixTurn (ops : List UnaryOp) : Blind (prefixTurn ops) := by
  refine blind_currentKind.andThen fun kind => ?_
  split
  · exact blind_advance.andThen fun _ => blind_pure _
  · exact blind_advance.andThen fun _ => blind_pure _
  · exact blind_pure _

theorem blind_unary : Blind (unary inner) :=
  (blind_iterate blind_prefixTurn).andThen fun _ =>
    ((blind_primary hinner).andThen fun _ => blind_iterate (blind_postfixTurn hinner)).andThen
      fun _ => blind_pure _

theorem blind_equality : Blind (equality inner) :=
  blind_chain (blind_chain (blind_chain (blind_chain (blind_unary hinner))))

theorem blind_conditional : Blind (conditional inner) := by
  refine blind_valueFailed.andThen fun _ => (blind_equality hinner).andThen fun _ => ?_
  refine blind_valueFailed.andThen fun _ => .ite (fun _ => blind_pure _) fun _ => ?_
  refine (blind_eat _).andThen fun _ => .ite (fun _ => ?_) fun _ => blind_pure _
  refine (hinner .any).andThen fun _ => (blind_eat _).andThen fun _ => .ite (fun _ => ?_) fun _ => ?_
  · exact (hinner .conditional).andThen fun _ => blind_pure _
  · exact (blind_unexpected _).andThen fun _ => (blind_setValueFailed true).andThen fun _ =>
      blind_pure _

theorem blind_coalesce : Blind (coalesce inner) :=
  blind_chain (blind_chain (blind_chain (blind_conditional hinner)))

end

/-! ## Levels -/

theorem blind_refuseValue : Blind refuseValue :=
  blind_skipValue.andThen fun _ => (blind_setValueFailed true).andThen fun _ => blind_pure _

theorem blind_nested (levels : Nat) (strength : Strength) : Blind (nested levels strength) := by
  induction levels generalizing strength with
  | zero => exact .throw _
  | succ levels ih =>
      cases strength with
      | any => exact paces_deeper blind_refuseValue (blind_coalesce ih)
      | conditional => exact paces_deeper blind_refuseValue (blind_conditional ih)

theorem blind_value : Blind value :=
  blind_nested _ .any

theorem blind_object : Blind object :=
  blind_objectEntries (blind_nested _)

theorem blind_valueOr {recover : Parser Unit} (hrecover : Blind recover) :
    Blind (valueOr recover) :=
  (blind_setValueFailed false).andThen fun _ => blind_value.andThen fun _ =>
    (blind_ifFailed hrecover).andThen fun _ => blind_pure _

/-! ## Arguments of directives -/

theorem blind_argument : Blind argument :=
  (blind_valueOr blind_recoverInList).andThen fun _ =>
    (blind_setValueFailed false).andThen fun _ => blind_pure _

theorem blind_argumentTurn (config : TraitConfig) : Blind (argumentTurn config) := by
  refine blind_current.andThen fun token => ?_
  split
  · exact blind_advance.andThen fun _ => blind_pure _
  · exact (blind_unexpected _).andThen fun _ => blind_pure _
  · exact blind_advance.andThen fun _ => blind_pure _
  · refine (blind_peekKind 1).andThen fun _ => .ite (fun _ => ?_) fun _ => ?_
    · exact blind_advance.andThen fun _ => blind_advance.andThen fun _ =>
        blind_argument.andThen fun _ => blind_pure _
    · exact blind_argument.andThen fun _ => blind_current.andThen fun _ =>
        .ite (fun _ => blind_pure _) fun _ => blind_pure _

theorem blind_arguments (line : Nat) : Blind (arguments line) :=
  blind_current.andThen fun _ => .ite
    (fun _ => blind_advance.andThen fun _ => blind_iterate blind_argumentTurn) fun _ => blind_pure _

theorem blind_textTurn (line : Nat) (config : TraitConfig) : Blind (textTurn line config) :=
  blind_current.andThen fun _ => .ite (fun _ => blind_advance.andThen fun _ => blind_pure _)
    fun _ => blind_pure _

theorem blind_directiveConfig (allowBody : Bool) : Blind (directiveConfig allowBody) :=
  blind_previousLine.andThen fun line => (blind_arguments line).andThen fun _ =>
    (blind_iterate (blind_textTurn line)).andThen fun _ => (blind_check _).andThen fun _ =>
      .ite (fun _ => blind_object.andThen fun _ => blind_pure _) fun _ => blind_pure _

end Parser
end SceneLang
