import SceneLang.Parser.Arguments

/-!
# What parsers are composed of

A parser looks at its state, changes it by a few operations, and goes round loops.  The only change
of the nesting is made where something is read one level deeper, so that what is composed of these
parts enters and leaves levels in pairs.  The parts come first, then the parsers that skip and those
that read names, blocks and values.
-/

namespace SceneLang
namespace Parser

variable {α β : Type}

/-! ## Parts -/

/-- What a parser does to its state, other than to change the nesting or to report that it is too
deep. -/
inductive Operation : (State → State) → Prop where
  | advance : Operation State.advance
  | report (d : Diagnostic) (h : d.code ≠ .nestingTooDeep) :
      Operation fun state => { state with log := state.log.push d }
  | valueFailed (failed : Bool) : Operation fun state => { state with valueFailed := failed }
  | use (feature : Feature) :
      Operation fun state =>
        if state.features.contains feature then state
        else { state with features := feature :: state.features }
  | interpolation (id text : String) :
      Operation fun state => { state with expressions := state.expressions.insert id text }
  | imports (decl : ImportDecl) :
      Operation fun state => { state with imports := state.imports ++ [decl] }

/-- The parser is put together from operations, loops and levels. -/
inductive Composed : {α : Type} → Parser α → Prop where
  | pure {α : Type} (value : α) : Composed (pure value : Parser α)
  | throw {α : Type} (fault : Fault) : Composed (throw fault : Parser α)
  | get : Composed (get : Parser State)
  | read : Composed (read : Parser Context)
  | modify {f : State → State} (h : Operation f) : Composed (modify f : Parser Unit)
  | bind {α β : Type} {p : Parser α} {f : α → Parser β} (hp : Composed p)
      (hf : ∀ value, Composed (f value)) : Composed (p >>= f)
  | iterate {β : Type} {step : β → Parser (ForInStep β)} (hstep : ∀ value, Composed (step value))
      (start : β) : Composed (iterate start step)
  | deeper {α : Type} {refused body : Parser α} (hrefused : Composed refused)
      (hbody : Composed body) : Composed (deeper refused body)

theorem Composed.ite {c : Prop} [Decidable c] {p q : Parser α} (hp : Composed p)
    (hq : Composed q) : Composed (if c then p else q) := by
  split
  · exact hp
  · exact hq

/-! ## Tokens -/

theorem composed_peek (n : Nat) : Composed (peek n) := by
  refine .bind .get fun state => ?_
  split
  · exact .pure _
  · exact .throw _

theorem composed_peekKind (n : Nat) : Composed (peekKind n) :=
  (composed_peek n).bind fun _ => .pure _

theorem composed_current : Composed current :=
  composed_peek 0

theorem composed_currentKind : Composed currentKind :=
  composed_current.bind fun _ => .pure _

theorem composed_check (kind : TokenKind) : Composed (check kind) :=
  composed_currentKind.bind fun _ => .pure _

theorem composed_advance : Composed advance :=
  composed_current.bind fun _ => .modify .advance

theorem composed_eat (kind : TokenKind) : Composed (eat kind) :=
  (composed_check kind).bind fun _ => .ite (composed_advance.bind fun _ => .pure _) (.pure _)

/-! ## Places -/

theorem composed_previousSpan : Composed previousSpan :=
  .bind .get fun _ => .pure _

theorem composed_previousLine : Composed previousLine :=
  .bind .get fun _ => .pure _

theorem composed_startPosition : Composed startPosition :=
  composed_current.bind fun _ => .pure _

theorem composed_endPosition : Composed endPosition := by
  refine .bind .get fun state => ?_
  split
  · exact .pure _
  · exact .bind .read fun _ => .pure _

theorem composed_locationFrom (start : Position) : Composed (locationFrom start) :=
  composed_endPosition.bind fun _ => .pure _

theorem composed_sliceBetween (start stop : Nat) : Composed (sliceBetween start stop) :=
  .bind .read fun _ => .pure _

/-! ## Reports and notes -/

theorem composed_report {d : Diagnostic} (h : d.code ≠ .nestingTooDeep) : Composed (report d) :=
  .modify (.report d h)

theorem composed_reportError {code : Code} (h : code ≠ .nestingTooDeep) (message : String) :
    Composed (reportError code message) :=
  composed_current.bind fun _ => composed_report h

theorem composed_unexpected (place : String) : Composed (unexpected place) :=
  composed_current.bind fun _ => composed_reportError Code.noConfusion _

theorem composed_reportUnterminated (token : Token) : Composed (reportUnterminated token) :=
  .bind .read fun _ => composed_report Code.noConfusion

theorem composed_reportUnclosed (opening : Token) : Composed (reportUnclosed opening) :=
  composed_previousSpan.bind fun _ => composed_endPosition.bind fun _ =>
    composed_report Code.noConfusion

theorem composed_valueFailed : Composed valueFailed :=
  .bind .get fun _ => .pure _

theorem composed_setValueFailed (failed : Bool) : Composed (setValueFailed failed) :=
  .modify (.valueFailed failed)

theorem composed_use (feature : Feature) : Composed (use feature) :=
  .modify (.use feature)

/-! ## Skips -/

theorem composed_lower (count : Nat) : Composed (lower count) := by
  cases count with
  | zero => exact .throw _
  | succ count => exact .pure _

theorem composed_closingTurn (delimiter : Delimiter) (depth : Nat) :
    Composed (closingTurn delimiter depth) := by
  refine composed_currentKind.bind fun kind => .ite (.pure _) ?_
  refine composed_advance.bind fun _ => .ite (.pure _) (.ite ?_ (.pure _))
  exact (composed_lower depth).bind fun _ => .pure _

theorem composed_skipToClosing (delimiter : Delimiter) : Composed (skipToClosing delimiter) :=
  .bind (.iterate (composed_closingTurn delimiter) 1) fun _ => .pure _

theorem composed_skipBalanced : Composed skipBalanced := by
  refine composed_currentKind.bind fun kind => ?_
  split
  · exact composed_advance.bind fun _ => .pure _
  · exact composed_advance.bind fun _ => composed_skipToClosing _

theorem composed_skipTurn {test : Parser Bool} (htest : Composed test) :
    Composed (skipTurn test) :=
  htest.bind fun _ => .ite (.pure _) (composed_skipBalanced.bind fun _ => .pure _)

theorem composed_skipUntil {test : Parser Bool} (htest : Composed test) :
    Composed (skipUntil test) :=
  .iterate (fun _ => composed_skipTurn htest) ()

theorem composed_atSafePlace : Composed atSafePlace :=
  composed_current.bind fun _ => .bind .get fun _ => .pure _

theorem composed_synchronize : Composed synchronize :=
  composed_currentKind.bind fun _ => .ite (.pure _)
    (composed_skipBalanced.bind fun _ => composed_skipUntil composed_atSafePlace)

theorem composed_atListEnd : Composed atListEnd :=
  composed_currentKind.bind fun _ => .pure _

theorem composed_recoverInList : Composed recoverInList :=
  composed_skipUntil composed_atListEnd

theorem composed_ifFailed {recover : Parser Unit} (h : Composed recover) :
    Composed (ifFailed recover) :=
  composed_valueFailed.bind fun _ => .ite h (.pure _)

theorem composed_skipValue : Composed skipValue :=
  composed_currentKind.bind fun _ => .ite (.pure _) (composed_skipBalanced.bind fun _ => .pure _)

/-! ## Names and blocks -/

theorem composed_expectName (what : String) : Composed (expectName what) := by
  refine composed_current.bind fun token => ?_
  split
  · exact composed_advance.bind fun _ => .pure _
  · exact composed_advance.bind fun _ => .pure _
  · exact (composed_reportUnterminated _).bind fun _ => composed_advance.bind fun _ => .pure _
  · exact (composed_unexpected _).bind fun _ => .pure _

section

variable {item : β → Parser β} (hitem : ∀ value, Composed (item value))
include hitem

theorem composed_bracedItem (value : β) : Composed (bracedItem (item value)) := by
  refine .bind .get fun _ => (hitem value).bind fun _ => .bind .get fun _ => .ite ?_ (.pure _)
  exact composed_currentKind.bind fun _ => .ite (.pure _) (composed_advance.bind fun _ => .pure _)

theorem composed_bracedTurn (opening : Token) (value : β) :
    Composed (bracedTurn opening item value) := by
  refine composed_currentKind.bind fun kind => ?_
  split
  · exact composed_advance.bind fun _ => .pure _
  · exact (composed_reportUnclosed opening).bind fun _ => .pure _
  · exact composed_advance.bind fun _ => .pure _
  · exact composed_advance.bind fun _ => .pure _
  · exact composed_bracedItem hitem value

theorem composed_braced (start : β) : Composed (braced start item) :=
  composed_current.bind fun opening => (composed_eat _).bind fun _ =>
    .ite (.iterate (composed_bracedTurn hitem opening) start)
      ((composed_unexpected _).bind fun _ => .pure _)

end

theorem composed_captureBlock : Composed captureBlock := by
  refine composed_current.bind fun opening => .ite ?_ ((composed_unexpected _).bind fun _ => .pure _)
  refine composed_skipBalanced.bind fun closed => .ite ?_ ?_
  · exact composed_previousSpan.bind fun _ => (composed_sliceBetween _ _).bind fun _ => .pure _
  · exact (composed_reportUnclosed opening).bind fun _ => .bind .read fun _ =>
      (composed_sliceBetween _ _).bind fun _ => .pure _

theorem composed_blockText : Composed blockText :=
  composed_captureBlock.bind fun _ => .pure _

theorem composed_paramListTurn (params : List String) : Composed (paramListTurn params) := by
  refine composed_current.bind fun token => ?_
  split
  · exact composed_advance.bind fun _ => .pure _
  · exact composed_advance.bind fun _ => .pure _
  · exact composed_advance.bind fun _ => composed_current.bind fun _ =>
      .ite (composed_advance.bind fun _ => .pure _) (.pure _)
  · exact composed_advance.bind fun _ => .pure _
  · exact (composed_unexpected _).bind fun _ => (composed_skipToClosing _).bind fun _ => .pure _

theorem composed_paramList : Composed paramList :=
  (composed_eat _).bind fun _ =>
    .ite (.bind (.iterate composed_paramListTurn []) fun _ => .pure _) (.pure _)

end Parser
end SceneLang

/-!
## Values

A parser of values is composed if the parser of the values inside is.  From one level to the next
the values inside go through `deeper`, so that values of any number of levels are read by composed
parsers.
-/

namespace SceneLang
namespace Parser

/-! ## Operators -/

theorem composed_expectClosing (delimiter : Delimiter) : Composed (expectClosing delimiter) :=
  (composed_eat _).bind fun _ => .ite (.pure _)
    ((composed_unexpected _).bind fun _ => composed_setValueFailed true)

theorem composed_chainTurn (operator? : TokenKind → Option BinaryOp) {operand : Parser Value}
    (h : Composed operand) (left : Value) : Composed (chainTurn operator? operand left) := by
  refine composed_currentKind.bind fun kind => ?_
  split
  · exact .pure _
  · exact composed_advance.bind fun _ => h.bind fun _ => .pure _

theorem composed_chain (operator? : TokenKind → Option BinaryOp) {operand : Parser Value}
    (h : Composed operand) : Composed (chain operator? operand) :=
  h.bind (.iterate (composed_chainTurn operator? h))

section

variable {inner : Inner} (hinner : ∀ strength, Composed (inner strength))
include hinner

/-! ## Lists and objects -/

theorem composed_sequenceItem : Composed (sequenceItem inner) :=
  (composed_eat _).bind fun _ => .ite
    ((composed_use _).bind fun _ => (hinner .any).bind fun _ => .pure _) (hinner .any)

omit hinner in
theorem composed_sequenceNext (delimiter : Delimiter) (items : List Value) :
    Composed (sequenceNext delimiter items) :=
  (composed_eat _).bind fun _ => .ite (.pure _) <| (composed_check _).bind fun _ =>
    .ite (.pure _) ((composed_expectClosing delimiter).bind fun _ => .pure _)

theorem composed_sequenceTurn (delimiter : Delimiter) (items : List Value) :
    Composed (sequenceTurn inner delimiter items) := by
  refine (composed_eat _).bind fun _ => .ite (.pure _) ?_
  refine composed_currentKind.bind fun _ => .ite ?_ ?_
  · exact (composed_expectClosing delimiter).bind fun _ => .pure _
  · exact (composed_setValueFailed false).bind fun _ => (composed_sequenceItem hinner).bind fun _ =>
      (composed_ifFailed composed_recoverInList).bind fun _ => composed_sequenceNext delimiter _

theorem composed_sequence (delimiter : Delimiter) : Composed (sequence inner delimiter) := by
  refine .bind (.iterate (fun _ => composed_sequenceTurn hinner delimiter _) _) fun _ => ?_
  exact .ite ((composed_setValueFailed false).bind fun _ => .pure _) (.pure _)

theorem composed_fieldValue (key : Token) : Composed (fieldValue inner key) :=
  composed_currentKind.bind fun _ => .ite (composed_advance.bind fun _ => hinner .any) <|
    .ite (.pure _) ((composed_report Code.noConfusion).bind fun _ => hinner .any)

omit hinner in
theorem composed_strayEntry : Composed strayEntry := by
  refine composed_currentKind.bind fun _ => (composed_unexpected _).bind fun _ => ?_
  refine (composed_setValueFailed true).bind fun _ => .ite ?_ ?_
  · exact composed_advance.bind fun _ => composed_recoverInList
  · exact composed_skipValue.bind fun _ => composed_recoverInList

omit hinner in
theorem composed_reportOpenObject (opening last : Token) :
    Composed (reportOpenObject opening last) :=
  composed_endPosition.bind fun _ => composed_report Code.noConfusion

theorem composed_objectTurn (opening : Token) (entries : List ObjectEntry) :
    Composed (objectTurn inner opening entries) := by
  have hfield (key : Token) : Composed do
      advance
      let value ← fieldValue inner key
      ifFailed recoverInList
      return ForInStep.yield (ObjectEntry.field key.text value :: entries, false) :=
    composed_advance.bind fun _ => (composed_fieldValue hinner key).bind fun _ =>
      (composed_ifFailed composed_recoverInList).bind fun _ => .pure _
  refine composed_current.bind fun token => ?_
  split
  · exact composed_advance.bind fun _ => .pure _
  · exact (composed_reportOpenObject opening token).bind fun _ =>
      (composed_setValueFailed true).bind fun _ => .pure _
  · exact composed_advance.bind fun _ => .pure _
  · exact composed_advance.bind fun _ => .pure _
  · exact composed_advance.bind fun _ => (composed_use _).bind fun _ => (hinner .any).bind fun _ =>
      (composed_ifFailed composed_recoverInList).bind fun _ => .pure _
  · exact hfield token
  · exact hfield token
  · exact hfield token
  · exact hfield token
  · exact hfield token
  · exact composed_strayEntry.bind fun _ => .pure _

theorem composed_objectEntries : Composed (objectEntries inner) := by
  refine composed_current.bind fun opening => composed_advance.bind fun _ => ?_
  refine .bind (.iterate (fun _ => composed_objectTurn hinner opening _) _) fun _ => ?_
  exact .ite ((composed_setValueFailed false).bind fun _ => .pure _) (.pure _)

/-! ## Functions -/

omit hinner in
theorem composed_arrowAhead : Composed arrowAhead :=
  .bind .get fun _ => .pure _

omit hinner in
theorem composed_paramName (rest : Bool) : Composed (paramName rest) :=
  composed_current.bind fun _ => composed_advance.bind fun _ =>
    (composed_eat _).bind fun _ => .pure _

omit hinner in
theorem composed_paramTurn (params : List ArrowParam) : Composed (paramTurn params) := by
  refine (composed_eat _).bind fun _ => .ite (.pure _) ?_
  refine (composed_eat _).bind fun rest => .ite ?_ ?_
  · exact (composed_use _).bind fun _ => (composed_paramName rest).bind fun _ => .pure _
  · exact (composed_paramName rest).bind fun _ => .pure _

omit hinner in
theorem composed_arrowParams : Composed arrowParams :=
  composed_current.bind fun _ => composed_advance.bind fun _ => .ite (.pure _)
    (.bind (.iterate composed_paramTurn []) fun _ => .pure _)

theorem composed_arrow : Composed (arrow inner) := by
  refine (composed_use _).bind fun _ => composed_arrowParams.bind fun params => ?_
  refine (composed_eat _).bind fun _ => (composed_check _).bind fun _ => .ite ?_ ?_
  · exact composed_blockText.bind fun _ => .pure _
  · exact (hinner .any).bind fun _ => .pure _

/-! ## Primary values -/

omit hinner in
theorem composed_interpolation (text : String) : Composed (interpolation text) :=
  (composed_use _).bind fun _ => .bind .get fun _ =>
    .bind (.modify (.interpolation _ text)) fun _ => .pure _

theorem composed_primary : Composed (primary inner) := by
  refine composed_current.bind fun token => ?_
  split
  · exact composed_advance.bind fun _ => .pure _
  · exact (composed_reportUnterminated token).bind fun _ => composed_advance.bind fun _ => .pure _
  · exact composed_advance.bind fun _ => .pure _
  · exact composed_advance.bind fun _ => .pure _
  · exact composed_advance.bind fun _ => .pure _
  · exact composed_advance.bind fun _ => composed_interpolation _
  · exact (composed_peekKind 1).bind fun _ => .ite (composed_arrow hinner)
      (composed_advance.bind fun _ => .pure _)
  · exact composed_arrowAhead.bind fun _ => .ite (composed_arrow hinner) <|
      composed_advance.bind fun _ => (hinner .any).bind fun _ =>
        (composed_expectClosing _).bind fun _ => .pure _
  · exact composed_advance.bind fun _ => (composed_sequence hinner .bracket).bind fun _ => .pure _
  · exact (composed_objectEntries hinner).bind fun _ => .pure _
  · exact (composed_unexpected _).bind fun _ => (composed_setValueFailed true).bind fun _ =>
      composed_skipValue.bind fun _ => .pure _

theorem composed_postfixTurn (value : Value) : Composed (postfixTurn inner value) := by
  refine composed_current.bind fun token => composed_previousLine.bind fun line => ?_
  dsimp only
  split
  · refine composed_advance.bind fun _ => composed_current.bind fun name => .ite ?_ ?_
    · exact composed_advance.bind fun _ => .pure _
    · exact (composed_unexpected _).bind fun _ => (composed_setValueFailed true).bind fun _ =>
        .pure _
  · refine .ite ?_ (.pure _)
    exact composed_advance.bind fun _ => (hinner .any).bind fun _ =>
      (composed_expectClosing _).bind fun _ => .pure _
  · refine .ite ?_ (.pure _)
    exact composed_advance.bind fun _ => (composed_sequence hinner .paren).bind fun _ => .pure _
  · exact .pure _

omit hinner in
theorem composed_prefixTurn (ops : List UnaryOp) : Composed (prefixTurn ops) := by
  refine composed_currentKind.bind fun kind => ?_
  split
  · exact composed_advance.bind fun _ => .pure _
  · exact composed_advance.bind fun _ => .pure _
  · exact .pure _

theorem composed_postfixed : Composed (postfixed inner) :=
  (composed_primary hinner).bind (.iterate (composed_postfixTurn hinner))

theorem composed_unary : Composed (unary inner) :=
  .bind (.iterate composed_prefixTurn []) fun _ => (composed_postfixed hinner).bind fun _ => .pure _

theorem composed_equality : Composed (equality inner) :=
  composed_chain _ (composed_chain _ (composed_chain _ (composed_chain _ (composed_unary hinner))))

theorem composed_conditional : Composed (conditional inner) := by
  refine composed_valueFailed.bind fun _ => (composed_equality hinner).bind fun _ => ?_
  refine composed_valueFailed.bind fun _ => .ite (.pure _) ?_
  refine (composed_eat _).bind fun _ => .ite ?_ (.pure _)
  refine (hinner .any).bind fun _ => (composed_eat _).bind fun _ => .ite ?_ ?_
  · exact (hinner .conditional).bind fun _ => .pure _
  · exact (composed_unexpected _).bind fun _ => (composed_setValueFailed true).bind fun _ =>
      .pure _

theorem composed_coalesce : Composed (coalesce inner) :=
  composed_chain _ (composed_chain _ (composed_chain _ (composed_conditional hinner)))

end

/-! ## Levels -/

theorem composed_refuseValue : Composed refuseValue :=
  composed_skipValue.bind fun _ => (composed_setValueFailed true).bind fun _ => .pure _

theorem composed_nested (levels : Nat) (strength : Strength) :
    Composed (nested levels strength) := by
  induction levels generalizing strength with
  | zero => exact .throw _
  | succ levels ih =>
      cases strength with
      | any => exact .deeper composed_refuseValue (composed_coalesce ih)
      | conditional => exact .deeper composed_refuseValue (composed_conditional ih)

theorem composed_value : Composed value :=
  composed_nested _ .any

theorem composed_object : Composed object :=
  composed_objectEntries (composed_nested _)

theorem composed_valueOr {recover : Parser Unit} (h : Composed recover) :
    Composed (valueOr recover) :=
  (composed_setValueFailed false).bind fun _ => composed_value.bind fun _ =>
    (composed_ifFailed h).bind fun _ => .pure _

/-! ## Arguments of directives -/

theorem composed_argument : Composed argument :=
  (composed_valueOr composed_recoverInList).bind fun _ =>
    (composed_setValueFailed false).bind fun _ => .pure _

theorem composed_argumentTurn (config : TraitConfig) : Composed (argumentTurn config) := by
  refine composed_current.bind fun token => ?_
  split
  · exact composed_advance.bind fun _ => .pure _
  · exact (composed_unexpected _).bind fun _ => .pure _
  · exact composed_advance.bind fun _ => .pure _
  · refine (composed_peekKind 1).bind fun _ => .ite ?_ ?_
    · exact composed_advance.bind fun _ => composed_advance.bind fun _ =>
        composed_argument.bind fun _ => .pure _
    · exact composed_argument.bind fun _ => composed_current.bind fun _ => .ite (.pure _) (.pure _)

theorem composed_arguments (line : Nat) : Composed (arguments line) :=
  composed_current.bind fun _ => .ite
    (composed_advance.bind fun _ => .iterate composed_argumentTurn _) (.pure _)

theorem composed_textTurn (line : Nat) (config : TraitConfig) : Composed (textTurn line config) :=
  composed_current.bind fun _ => .ite (composed_advance.bind fun _ => .pure _) (.pure _)

theorem composed_directiveConfig (allowBody : Bool) : Composed (directiveConfig allowBody) :=
  composed_previousLine.bind fun line => (composed_arguments line).bind fun config =>
    .bind (.iterate (composed_textTurn line) config) fun _ => (composed_check _).bind fun _ =>
      .ite (composed_object.bind fun _ => .pure _) (.pure _)

end Parser
end SceneLang
