import SceneLang.Parser.Arguments
import SceneLang.Proofs.Origin.Reports

/-!
# What is reported of values

Finding the way back reports nothing.  Blocks, parameters and values report what is about the
tokens that they are read from.
-/

namespace SceneLang
namespace Parser

variable {α β : Type} {source : List Char} {tokens : List Token}

/-! ## Finding the way back -/

theorem faithful_closingTurn (delimiter : Delimiter) (depth : Nat) :
    Faithful source tokens (closingTurn delimiter depth) := by
  apply faithful_currentKind.bind
  intro kind
  refine .ite (.pure trivial) (faithful_advance.bind fun _ => .ite (.pure trivial) ?_)
  exact .ite ((faithful_lower depth).bind fun _ => .pure trivial) (.pure trivial)

theorem faithful_skipToClosing (delimiter : Delimiter) :
    Faithful source tokens (skipToClosing delimiter) :=
  (faithful_iterate (faithful_closingTurn delimiter)).bind fun _ => .pure trivial

theorem faithful_skipBalanced : Faithful source tokens skipBalanced := by
  apply faithful_currentKind.bind
  intro kind
  split
  · exact faithful_advance.bind fun _ => .pure trivial
  · exact faithful_advance.bind fun _ => faithful_skipToClosing _

theorem faithful_skipUntil {test : Parser Bool} (htest : Faithful source tokens test) :
    Faithful source tokens (skipUntil test) :=
  faithful_iterate fun _ => htest.bind fun _ =>
    .ite (.pure trivial) (faithful_skipBalanced.bind fun _ => .pure trivial)

theorem faithful_synchronize : Faithful source tokens synchronize := by
  have hplace : Faithful source tokens atSafePlace :=
    tells_current.bind fun _ _ => tells_get.bind fun _ _ => .pure trivial
  apply faithful_currentKind.bind
  intro kind
  exact .ite (.pure trivial) (faithful_skipBalanced.bind fun _ => faithful_skipUntil hplace)

theorem faithful_recoverInList : Faithful source tokens recoverInList :=
  faithful_skipUntil (faithful_currentKind.bind fun _ => .pure trivial)

theorem faithful_ifFailed {recover : Parser Unit} (h : Faithful source tokens recover) :
    Faithful source tokens (ifFailed recover) :=
  faithful_valueFailed.bind fun _ => .ite h (.pure trivial)

theorem faithful_skipValue : Faithful source tokens skipValue :=
  faithful_currentKind.bind fun _ =>
    .ite (.pure trivial) (faithful_skipBalanced.bind fun _ => .pure trivial)

/-! ## Names and blocks -/

theorem faithful_expectName (what : String) : Faithful source tokens (expectName what) := by
  apply tells_current.bind
  intro token hmem
  split
  · exact faithful_advance.bind fun _ => .pure trivial
  · exact faithful_advance.bind fun _ => .pure trivial
  · exact (faithful_reportUnterminated hmem).bind fun _ =>
      faithful_advance.bind fun _ => .pure trivial
  · exact (faithful_unexpected _).bind fun _ => .pure trivial

theorem tells_braced {start : β} {item : β → Parser β} {made : β → Prop} (hstart : made start)
    (hitem : ∀ value, made value → Tells source tokens (item value) made) :
    Tells source tokens (braced start item) made := by
  apply tells_current.bind
  intro opening hmem
  apply (faithful_eat .leftBrace).bind
  intro opened
  refine .ite (.iterate hstart fun value hvalue => ?_)
    ((faithful_unexpected _).bind fun _ => .pure hstart)
  apply faithful_currentKind.bind
  intro kind
  split
  · exact faithful_advance.bind fun _ => .pure hvalue
  · exact (faithful_reportUnclosed hmem).bind fun _ => .pure hvalue
  · exact faithful_advance.bind fun _ => .pure hvalue
  · exact faithful_advance.bind fun _ => .pure hvalue
  · apply tells_get.bind
    intro _ _
    apply (hitem value hvalue).bind
    intro value hvalue
    apply tells_get.bind
    intro _ _
    refine .ite (faithful_currentKind.bind fun _ => ?_) (.pure hvalue)
    exact .ite (.pure hvalue) (faithful_advance.bind fun _ => .pure hvalue)

theorem faithful_braced {start : β} {item : β → Parser β}
    (hitem : ∀ value, Faithful source tokens (item value)) :
    Faithful source tokens (braced start item) :=
  tells_braced trivial fun value _ => hitem value

theorem faithful_captureBlock : Faithful source tokens captureBlock := by
  apply tells_current.bind
  intro opening hmem
  refine .ite (faithful_skipBalanced.bind fun closed => ?_)
    ((faithful_unexpected _).bind fun _ => .pure trivial)
  cases closed with
  | true =>
      exact faithful_previousSpan.bind fun _ =>
        (faithful_sliceBetween _ _).bind fun _ => .pure trivial
  | false =>
      exact (faithful_reportUnclosed hmem).bind fun _ => tells_read.bind fun _ _ =>
        (faithful_sliceBetween _ _).bind fun _ => .pure trivial

theorem faithful_blockText : Faithful source tokens blockText :=
  faithful_captureBlock.bind fun _ => .pure trivial

theorem faithful_paramList : Faithful source tokens paramList := by
  have hturn (params : List String) : Faithful source tokens (paramListTurn params) := by
    apply tells_current.bind
    intro token _
    split
    · exact faithful_advance.bind fun _ => .pure trivial
    · exact faithful_advance.bind fun _ => .pure trivial
    · apply faithful_advance.bind
      intro _
      apply tells_current.bind
      intro _ _
      exact .ite (faithful_advance.bind fun _ => .pure trivial) (.pure trivial)
    · exact faithful_advance.bind fun _ => .pure trivial
    · exact (faithful_unexpected _).bind fun _ =>
        (faithful_skipToClosing .paren).bind fun _ => .pure trivial
  apply (faithful_eat .leftParen).bind
  intro _
  exact .ite ((faithful_iterate hturn).bind fun _ => .pure trivial) (.pure trivial)

/-! ## Lists, objects and functions -/

theorem faithful_expectClosing (delimiter : Delimiter) :
    Faithful source tokens (expectClosing delimiter) :=
  (faithful_eat _).bind fun _ => .ite (.pure trivial)
    ((faithful_unexpected _).bind fun _ => faithful_setValueFailed true)

theorem faithful_chain {operator? : TokenKind → Option BinaryOp} {operand : Parser Value}
    (hoperand : Faithful source tokens operand) :
    Faithful source tokens (chain operator? operand) := by
  refine hoperand.bind fun _ => faithful_iterate fun left => ?_
  apply faithful_currentKind.bind
  intro kind
  split
  · exact .pure trivial
  · exact faithful_advance.bind fun _ => hoperand.bind fun _ => .pure trivial

section

variable {inner : Inner} (hinner : ∀ strength, Faithful source tokens (inner strength))
include hinner

theorem faithful_sequence (delimiter : Delimiter) :
    Faithful source tokens (sequence inner delimiter) := by
  have hitem : Faithful source tokens (sequenceItem inner) := by
    apply (faithful_eat .spread).bind
    intro _
    refine .ite ((faithful_use .spread).bind fun _ => ?_) (hinner .any)
    exact (hinner .any).bind fun _ => .pure trivial
  have hnext (items : List Value) : Faithful source tokens (sequenceNext delimiter items) := by
    apply (faithful_eat .comma).bind
    intro _
    refine .ite (.pure trivial) ((faithful_check _).bind fun _ => .ite (.pure trivial) ?_)
    exact (faithful_expectClosing delimiter).bind fun _ => .pure trivial
  refine Faithful.bind (faithful_iterate ?_) ?_
  · rintro ⟨items, closed⟩
    apply (faithful_eat _).bind
    intro _
    refine .ite (.pure trivial) (faithful_currentKind.bind fun _ => .ite ?_ ?_)
    · exact (faithful_expectClosing delimiter).bind fun _ => .pure trivial
    · exact (faithful_setValueFailed false).bind fun _ => hitem.bind fun item =>
        (faithful_ifFailed faithful_recoverInList).bind fun _ => hnext (item :: items)
  · rintro ⟨items, closed⟩
    exact .ite ((faithful_setValueFailed false).bind fun _ => .pure trivial) (.pure trivial)

theorem faithful_fieldValue {key : Token} (hmem : key ∈ tokens) :
    Faithful source tokens (fieldValue inner key) := by
  apply faithful_currentKind.bind
  intro kind
  refine .ite (faithful_advance.bind fun _ => hinner .any) (.ite (.pure trivial) ?_)
  exact (faithful_report (.missingColon key.text hmem)).bind fun _ => hinner .any

omit hinner in
theorem faithful_strayEntry : Faithful source tokens strayEntry := by
  apply faithful_currentKind.bind
  intro kind
  apply (faithful_unexpected _).bind
  intro _
  apply (faithful_setValueFailed true).bind
  intro _
  exact .ite (faithful_advance.bind fun _ => faithful_recoverInList)
    (faithful_skipValue.bind fun _ => faithful_recoverInList)

omit hinner in
theorem faithful_reportOpenObject {opening last : Token} (h : opening ∈ tokens)
    (hlast : last ∈ tokens) (heof : last.kind = .eof) :
    Faithful source tokens (reportOpenObject opening last) := by
  refine .of_returns fun options state hstate => ?_
  rw [reportOpenObject, returns_bind, returns_endPosition, report, returns_modify]
  exact ⟨hstate.push (.openObject h hlast heof hstate.previous), trivial⟩

theorem faithful_objectTurn {opening : Token} (h : opening ∈ tokens)
    (entries : List ObjectEntry) : Faithful source tokens (objectTurn inner opening entries) := by
  apply tells_current.bind
  intro token hmem
  have hfield : Faithful source tokens (do
      advance
      let value ← fieldValue inner token
      ifFailed recoverInList
      return ForInStep.yield (ObjectEntry.field token.text value :: entries, false)) :=
    faithful_advance.bind fun _ => (faithful_fieldValue hinner hmem).bind fun _ =>
      (faithful_ifFailed faithful_recoverInList).bind fun _ => .pure trivial
  split
  · exact faithful_advance.bind fun _ => .pure trivial
  next heof =>
    exact (faithful_reportOpenObject h hmem heof).bind fun _ =>
      (faithful_setValueFailed true).bind fun _ => .pure trivial
  · exact faithful_advance.bind fun _ => .pure trivial
  · exact faithful_advance.bind fun _ => .pure trivial
  · exact faithful_advance.bind fun _ => (faithful_use .spread).bind fun _ =>
      (hinner .any).bind fun _ => (faithful_ifFailed faithful_recoverInList).bind fun _ =>
        .pure trivial
  all_goals first
    | exact hfield
    | exact faithful_strayEntry.bind fun _ => .pure trivial

theorem faithful_objectEntries : Faithful source tokens (objectEntries inner) := by
  apply tells_current.bind
  intro opening hmem
  apply faithful_advance.bind
  intro _
  refine Faithful.bind (faithful_iterate ?_) ?_
  · rintro ⟨entries, closed⟩
    exact faithful_objectTurn hinner hmem entries
  · rintro ⟨entries, closed⟩
    exact .ite ((faithful_setValueFailed false).bind fun _ => .pure trivial) (.pure trivial)

omit hinner in
theorem faithful_arrowParams : Faithful source tokens arrowParams := by
  have hname (rest : Bool) : Faithful source tokens (paramName rest) :=
    tells_current.bind fun _ _ => faithful_advance.bind fun _ =>
      (faithful_eat .comma).bind fun _ => .pure trivial
  have hturn (params : List ArrowParam) : Faithful source tokens (paramTurn params) :=
    (faithful_eat .rightParen).bind fun _ => .ite (.pure trivial)
      ((faithful_eat .spread).bind fun rest => .ite
        ((faithful_use .spread).bind fun _ => (hname rest).bind fun _ => .pure trivial)
        ((hname rest).bind fun _ => .pure trivial))
  apply tells_current.bind
  intro token _
  apply faithful_advance.bind
  intro _
  exact .ite (.pure trivial) ((faithful_iterate hturn).bind fun _ => .pure trivial)

theorem faithful_arrow : Faithful source tokens (arrow inner) := by
  apply (faithful_use .arrowFunctions).bind
  intro _
  apply faithful_arrowParams.bind
  intro params
  apply (faithful_eat .fatArrow).bind
  intro _
  apply (faithful_check .leftBrace).bind
  intro _
  exact .ite (faithful_blockText.bind fun _ => .pure trivial)
    ((hinner .any).bind fun _ => .pure trivial)

/-! ## Values -/

omit hinner in
theorem faithful_interpolation (text : String) : Faithful source tokens (interpolation text) := by
  apply (faithful_use .interpolation).bind
  intro _
  apply tells_get.bind
  intro _ _
  refine Faithful.bind (faithful_modify fun _ h => ?_) fun _ => .pure trivial
  exact ⟨h.ahead, h.previous, h.errors, h.warnings⟩

theorem faithful_primary : Faithful source tokens (primary inner) := by
  apply tells_current.bind
  intro token hmem
  split
  · exact faithful_advance.bind fun _ => .pure trivial
  · exact (faithful_reportUnterminated hmem).bind fun _ =>
      faithful_advance.bind fun _ => .pure trivial
  · exact faithful_advance.bind fun _ => .pure trivial
  · exact faithful_advance.bind fun _ => .pure trivial
  · exact faithful_advance.bind fun _ => .pure trivial
  · exact faithful_advance.bind fun _ => faithful_interpolation _
  · apply (faithful_peekKind 1).bind
    intro _
    exact .ite (faithful_arrow hinner) (faithful_advance.bind fun _ => .pure trivial)
  · have harrow : Faithful source tokens arrowAhead := tells_get.bind fun _ _ => .pure trivial
    apply harrow.bind
    intro _
    refine .ite (faithful_arrow hinner) (faithful_advance.bind fun _ => ?_)
    exact (hinner .any).bind fun _ => (faithful_expectClosing .paren).bind fun _ => .pure trivial
  · exact faithful_advance.bind fun _ => (faithful_sequence hinner .bracket).bind fun _ =>
      .pure trivial
  · exact (faithful_objectEntries hinner).bind fun _ => .pure trivial
  · exact (faithful_unexpected _).bind fun _ => (faithful_setValueFailed true).bind fun _ =>
      faithful_skipValue.bind fun _ => .pure trivial

theorem faithful_postfixTurn (value : Value) :
    Faithful source tokens (postfixTurn inner value) := by
  apply tells_current.bind
  intro token _
  apply faithful_previousLine.bind
  intro line
  dsimp only
  split
  · apply faithful_advance.bind
    intro _
    apply tells_current.bind
    intro name _
    refine .ite (faithful_advance.bind fun _ => .pure trivial) ?_
    exact (faithful_unexpected _).bind fun _ => (faithful_setValueFailed true).bind fun _ =>
      .pure trivial
  · refine .ite (faithful_advance.bind fun _ => ?_) (.pure trivial)
    exact (hinner .any).bind fun _ => (faithful_expectClosing .bracket).bind fun _ => .pure trivial
  · exact .ite (faithful_advance.bind fun _ => (faithful_sequence hinner .paren).bind fun _ =>
      .pure trivial) (.pure trivial)
  · exact .pure trivial

theorem faithful_unary : Faithful source tokens (unary inner) := by
  have hturn (ops : List UnaryOp) : Faithful source tokens (prefixTurn ops) := by
    apply faithful_currentKind.bind
    intro kind
    split
    · exact faithful_advance.bind fun _ => .pure trivial
    · exact faithful_advance.bind fun _ => .pure trivial
    · exact .pure trivial
  have hpostfixed : Faithful source tokens (postfixed inner) :=
    (faithful_primary hinner).bind fun _ => faithful_iterate (faithful_postfixTurn hinner)
  exact (faithful_iterate hturn).bind fun _ => hpostfixed.bind fun _ => .pure trivial

theorem faithful_conditional : Faithful source tokens (conditional inner) := by
  have hequality : Faithful source tokens (equality inner) :=
    faithful_chain (faithful_chain (faithful_chain (faithful_chain (faithful_unary hinner))))
  apply faithful_valueFailed.bind
  intro before
  apply hequality.bind
  intro condition
  apply faithful_valueFailed.bind
  intro failed
  refine .ite (.pure trivial) ((faithful_eat .question).bind fun _ => .ite ?_ (.pure trivial))
  apply (hinner .any).bind
  intro _
  apply (faithful_eat .colon).bind
  intro _
  exact .ite ((hinner .conditional).bind fun _ => .pure trivial) ((faithful_unexpected _).bind
    fun _ => (faithful_setValueFailed true).bind fun _ => .pure trivial)

end

theorem faithful_nested (levels : Nat) (strength : Strength) :
    Faithful source tokens (nested levels strength) := by
  have hrefused : Faithful source tokens refuseValue :=
    faithful_skipValue.bind fun _ => (faithful_setValueFailed true).bind fun _ => .pure trivial
  induction levels generalizing strength with
  | zero => exact .throw
  | succ levels ih =>
      cases strength with
      | any =>
          have hcoalesce : Faithful source tokens (coalesce (nested levels)) :=
            faithful_chain (faithful_chain (faithful_chain (faithful_conditional ih)))
          exact tells_deeper hrefused hcoalesce
      | conditional => exact tells_deeper hrefused (faithful_conditional ih)

theorem faithful_valueOr {recover : Parser Unit} (h : Faithful source tokens recover) :
    Faithful source tokens (valueOr recover) :=
  (faithful_setValueFailed false).bind fun _ => (faithful_nested _ .any).bind fun _ =>
    (faithful_ifFailed h).bind fun _ => .pure trivial

/-! ## Arguments of directives -/

theorem faithful_arguments (line : Nat) : Faithful source tokens (arguments line) := by
  have hargument : Faithful source tokens argument :=
    (faithful_valueOr faithful_recoverInList).bind fun _ =>
      (faithful_setValueFailed false).bind fun _ => .pure trivial
  have hturn (config : TraitConfig) : Faithful source tokens (argumentTurn config) := by
    apply tells_current.bind
    intro token _
    split
    · exact faithful_advance.bind fun _ => .pure trivial
    · exact (faithful_unexpected _).bind fun _ => .pure trivial
    · exact faithful_advance.bind fun _ => .pure trivial
    · apply (faithful_peekKind 1).bind
      intro _
      refine .ite (faithful_advance.bind fun _ => faithful_advance.bind fun _ =>
        hargument.bind fun _ => .pure trivial) (hargument.bind fun _ => ?_)
      exact tells_current.bind fun _ _ => .ite (.pure trivial) (.pure trivial)
  apply tells_current.bind
  intro token _
  exact .ite (faithful_advance.bind fun _ => faithful_iterate hturn) (.pure trivial)

theorem faithful_directiveConfig (allowBody : Bool) :
    Faithful source tokens (directiveConfig allowBody) := by
  have hturn (line : Nat) (config : TraitConfig) : Faithful source tokens (textTurn line config) :=
    tells_current.bind fun _ _ =>
      .ite (faithful_advance.bind fun _ => .pure trivial) (.pure trivial)
  have hobject : Faithful source tokens object :=
    faithful_objectEntries fun strength => faithful_nested _ strength
  apply faithful_previousLine.bind
  intro line
  apply (faithful_arguments line).bind
  intro config
  refine (faithful_iterate (hturn line)).bind fun config => ?_
  apply (faithful_check .leftBrace).bind
  intro _
  exact .ite (hobject.bind fun _ => .pure trivial) (.pure trivial)

end Parser
end SceneLang
