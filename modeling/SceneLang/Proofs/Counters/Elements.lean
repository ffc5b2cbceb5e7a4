import SceneLang.Document
import SceneLang.Proofs.Counters.Parts

/-!
# What parsers of elements are composed of

Elements and directives hold each other, so that a parser of either is composed if the parsers of
what it holds are.
-/

namespace SceneLang
namespace Parser

/-! ## Attaching -/

theorem composed_attach (node : Node) (placed : PlacedDirective) :
    Composed (attach node placed) := by
  have hwarned (name : String) : Composed (do
      report (.warning .duplicateName placed.span placed.position
        s!"trait '@{name}' is declared more than once; the last declaration wins")
      return node.attach placed.directive) :=
    (composed_report Code.noConfusion).bind fun _ => .pure _
  unfold attach
  split
  · exact .ite (hwarned _) (.pure _)
  · exact .ite (hwarned _) (.pure _)
  · exact .pure _

theorem composed_close (node : Node) (start : Position) : Composed (close node start) :=
  (composed_locationFrom start).bind fun _ => .pure _

/-! ## Properties -/

theorem composed_checkGeometry (key : Token) (value : Value) (place : Token) :
    Composed (checkGeometry key value place) := by
  unfold checkGeometry
  split
  · refine .ite (composed_report ?_) (.pure _)
    rw [Diagnostic.unknownGeometry, Diagnostic.code_withCandidates]
    exact Code.noConfusion
  · exact .pure _

theorem composed_checkProperty (key : Token) (value : Value) (place : Token) :
    Composed (checkProperty key value place) := by
  unfold checkProperty
  split
  next d hd =>
    obtain ⟨correction, -, rfl⟩ := Option.map_eq_some_iff.mp hd
    exact (composed_report Code.noConfusion).bind fun _ => composed_checkGeometry _ _ _
  next => exact composed_checkGeometry _ _ _

theorem composed_property (node : Node) : Composed (property node) := by
  have hrest (key : Token) : Composed do
      let place ← current
      let read ← valueOr synchronize
      checkProperty key read place
      return { node with properties := node.properties.insert key.text read } :=
    composed_current.bind fun _ => (composed_valueOr composed_synchronize).bind fun _ =>
      (composed_checkProperty _ _ _).bind fun _ => .pure _
  refine composed_current.bind fun key => composed_advance.bind fun _ =>
    composed_currentKind.bind fun _ => .ite ?_ ?_
  · exact composed_advance.bind fun _ => hrest key
  · exact (composed_report Code.noConfusion).bind fun _ => hrest key

theorem composed_propertyAhead : Composed propertyAhead := by
  refine composed_current.bind fun _ => (composed_peek 1).bind fun _ => ?_
  refine .ite (.pure _) (.ite (.pure _) ?_)
  exact (composed_peekKind 2).bind fun _ => .ite (.pure _) (.pure _)

/-! ## Heads of elements -/

theorem composed_givenName (node : Node) : Composed (givenName node) := by
  refine composed_current.bind fun token => ?_
  split
  · exact composed_advance.bind fun _ => .pure _
  · exact (composed_reportUnterminated _).bind fun _ => composed_advance.bind fun _ => .pure _
  · exact (composed_peekKind 1).bind fun _ => .ite (.pure _) (composed_advance.bind fun _ => .pure _)
  · exact .pure _

theorem composed_givenId (node : Node) (headLine : Nat) : Composed (givenId node headLine) := by
  refine composed_current.bind fun _ => .ite ?_ (.pure _)
  refine composed_advance.bind fun _ => composed_current.bind fun _ => .ite ?_ ?_
  · exact composed_advance.bind fun _ => .pure _
  · exact (composed_unexpected _).bind fun _ => .pure _

theorem composed_elementName (node : Node) (headLine : Nat) :
    Composed (elementName node headLine) :=
  composed_current.bind fun _ => .ite (.pure _)
    ((composed_givenName node).bind fun _ => composed_givenId _ headLine)

theorem composed_setTemplate (node : Node) (token : Token) : Composed (setTemplate node token) := by
  unfold setTemplate
  split
  · exact .pure _
  · exact (composed_report Code.noConfusion).bind fun _ => .pure _

theorem composed_templateName (node : Node) : Composed (templateName node) := by
  refine composed_current.bind fun token => ?_
  split
  · exact composed_advance.bind fun _ => composed_setTemplate node token
  · exact composed_advance.bind fun _ => composed_setTemplate node token
  · exact (composed_reportUnterminated _).bind fun _ => composed_advance.bind fun _ =>
      composed_setTemplate node token
  · exact (composed_unexpected _).bind fun _ => .pure _

theorem composed_skipHead (headLine : Nat) : Composed (skipHead headLine) :=
  composed_skipUntil (composed_current.bind fun _ => .pure _)

theorem composed_templateParams (node : Node) : Composed (templateParams node) := by
  unfold templateParams
  split
  · exact (composed_check _).bind fun _ => .ite (composed_paramList.bind fun _ => .pure _) (.pure _)
  · exact .pure _

theorem composed_elementTemplate (node : Node) (headLine : Nat) :
    Composed (elementTemplate node headLine) :=
  composed_current.bind fun _ =>
    .ite (composed_advance.bind fun _ => composed_templateName node) (.pure _)

theorem composed_skipElement : Composed skipElement := by
  refine .bind (composed_skipUntil ?_) fun _ => (composed_check _).bind fun _ => .ite ?_ (.pure _)
  · exact composed_currentKind.bind fun _ => .bind .get fun _ => .pure _
  · exact composed_skipBalanced.bind fun _ => .pure _

theorem composed_refuseElement (node : Node) : Composed (refuseElement node) :=
  composed_skipElement.bind fun _ => .pure _

/-! ## Functions and logic -/

theorem composed_function : Composed function := by
  refine composed_startPosition.bind fun start => composed_advance.bind fun _ => ?_
  refine (composed_use _).bind fun _ => (composed_expectName _).bind fun name => ?_
  cases name with
  | none => exact composed_synchronize.bind fun _ => composed_close _ start
  | some name =>
      exact composed_paramList.bind fun _ => composed_blockText.bind fun _ => composed_close _ start

theorem composed_logicValue : Composed logicValue :=
  composed_valueOr composed_synchronize

theorem composed_logicItem (block : LogicBlock) : Composed (logicItem block) := by
  have hvalue (name : String) : Composed do
      return { block with values := block.values.insert name (← logicValue) } :=
    composed_logicValue.bind fun _ => .pure _
  have hskipped : Composed (do
      synchronize
      return block) :=
    composed_synchronize.bind fun _ => .pure _
  refine composed_current.bind fun token => (composed_peekKind 1).bind fun next => ?_
  dsimp only
  refine .ite ?_ (.ite ?_ (.ite ?_ (.ite ?_ ?_)))
  · refine composed_advance.bind fun _ => (composed_expectName _).bind fun name => ?_
    cases name with
    | none => exact hskipped
    | some name =>
        exact composed_paramList.bind fun _ => composed_blockText.bind fun _ => .pure _
  · refine composed_advance.bind fun _ => (composed_expectName _).bind fun name => ?_
    cases name with
    | none => exact hskipped
    | some name =>
        refine composed_currentKind.bind fun _ => .ite ?_ ?_
        · exact composed_advance.bind fun _ => hvalue name
        · exact (composed_unexpected _).bind fun _ => hvalue name
  · exact composed_advance.bind fun _ => composed_advance.bind fun _ => hvalue _
  · exact composed_advance.bind fun _ => composed_paramList.bind fun _ =>
      composed_blockText.bind fun _ => .ite (.pure _) (.pure _)
  · exact (composed_unexpected _).bind fun _ => hskipped

/-! ## State machines -/

theorem composed_stateItem (state : MachineState) : Composed (stateItem state) := by
  refine composed_current.bind fun token => (composed_peekKind 1).bind fun next => ?_
  refine .ite ?_ (.ite ?_ (.ite ?_ ?_))
  · exact composed_advance.bind fun _ => composed_captureBlock.bind fun _ => .pure _
  · exact composed_advance.bind fun _ => composed_captureBlock.bind fun _ => .pure _
  · exact composed_advance.bind fun _ => composed_advance.bind fun _ =>
      composed_logicValue.bind fun _ => .pure _
  · exact (composed_unexpected _).bind fun _ => composed_synchronize.bind fun _ => .pure _

theorem composed_machineState : Composed machineState := by
  refine (composed_expectName _).bind fun name => ?_
  cases name with
  | none => exact .pure _
  | some name =>
      exact (composed_check _).bind fun _ => .ite
        ((composed_braced composed_stateItem _).bind fun _ => .pure _) (.pure _)

theorem composed_transition : Composed transition := by
  refine (composed_expectName _).bind fun source => ?_
  cases source with
  | none => exact .pure _
  | some source =>
      refine (composed_eat _).bind fun _ => .ite ?_ ?_
      · refine (composed_expectName _).bind fun target => ?_
        cases target with
        | none => exact composed_synchronize.bind fun _ => .pure _
        | some target =>
            refine (composed_eat _).bind fun _ => .ite ?_ ?_
            · exact (composed_expectName _).bind fun _ => .pure _
            · exact .bind (.pure none) fun _ => .pure _
      · exact (composed_unexpected _).bind fun _ => composed_synchronize.bind fun _ => .pure _

theorem composed_addTransition (machine : StateMachine) : Composed (addTransition machine) := by
  refine composed_transition.bind fun found => ?_
  cases found with
  | none => exact .pure _
  | some found => exact .pure _

theorem composed_initialName (machine : StateMachine) (keyword : Token) :
    Composed (initialName machine keyword) := by
  refine (composed_expectName _).bind fun name => ?_
  cases name with
  | none => exact composed_synchronize.bind fun _ => .pure _
  | some name => exact .ite ((composed_report Code.noConfusion).bind fun _ => .pure _) (.pure _)

theorem composed_initialState (machine : StateMachine) : Composed (initialState machine) := by
  refine composed_current.bind fun keyword => composed_advance.bind fun _ =>
    composed_currentKind.bind fun _ => .ite ?_ ?_
  · exact composed_advance.bind fun _ => composed_initialName machine keyword
  · exact (composed_report Code.noConfusion).bind fun _ => composed_initialName machine keyword

theorem composed_transitionItem (machine : StateMachine) : Composed (transitionItem machine) :=
  composed_currentKind.bind fun _ => .ite (composed_addTransition machine)
    ((composed_unexpected _).bind fun _ => composed_synchronize.bind fun _ => .pure _)

/-- What an element or a directive holds is read by composed parsers. -/
structure Held.Composed (held : Held) : Prop where
  element : Parser.Composed held.element
  directive (allowBody : Bool) : Parser.Composed (held.directive allowBody)
  conditional : Parser.Composed held.conditional

section

variable {held : Held} (hheld : held.Composed)
include hheld

/-! ## Bodies -/

theorem composed_attachDirective (allowBody : Bool) (node : Node) :
    Composed (attachDirective held allowBody node) := by
  refine (hheld.directive allowBody).bind fun found => ?_
  cases found with
  | none => exact .pure _
  | some placed => exact composed_attach node placed

theorem composed_bodyItem (node : Node) : Composed (bodyItem held node) := by
  refine composed_currentKind.bind fun kind => ?_
  split
  · exact composed_attachDirective hheld true node
  · exact composed_advance.bind fun _ => (composed_use _).bind fun _ =>
      (composed_valueOr composed_synchronize).bind fun _ => .pure _
  · exact composed_propertyAhead.bind fun _ => .ite (composed_property node)
      (hheld.element.bind fun _ => .pure _)
  · exact (composed_peekKind 1).bind fun _ => .ite (composed_property node)
      ((composed_unexpected _).bind fun _ => composed_synchronize.bind fun _ => .pure _)

theorem composed_indentedItem (node : Node) : Composed (indentedItem held node) :=
  .bind .get fun _ => (composed_bodyItem hheld node).bind fun _ => .bind .get fun _ =>
    .ite (composed_advance.bind fun _ => .pure _) (.pure _)

theorem composed_indentedTurn (found : Node × Nat) : Composed (indentedTurn held found) := by
  obtain ⟨node, further⟩ := found
  refine composed_currentKind.bind fun kind => ?_
  split
  · exact composed_advance.bind fun _ => .pure _
  · exact composed_advance.bind fun _ => .pure _
  · exact composed_advance.bind fun _ => .ite (.pure _)
      ((composed_lower further).bind fun _ => .pure _)
  · exact .pure _
  · exact (composed_unexpected _).bind fun _ => composed_advance.bind fun _ => .pure _
  · exact (composed_indentedItem hheld node).bind fun _ => .pure _

theorem composed_indentedBody (node : Node) : Composed (indentedBody held node) :=
  .bind (.iterate (composed_indentedTurn hheld) _) fun _ => .pure _

theorem composed_headTurn (headLine : Nat) (node : Node) :
    Composed (headTurn held headLine node) := by
  refine composed_current.bind fun token => .ite (.pure _) ?_
  split
  · exact .pure _
  · exact .pure _
  · exact .pure _
  · exact .pure _
  · exact .pure _
  · exact .pure _
  · exact .pure _
  · exact .pure _
  · exact (composed_attachDirective hheld false node).bind fun _ => .pure _
  · exact (composed_peekKind 1).bind fun _ =>
      .ite ((composed_property node).bind fun _ => .pure _) (.pure _)
  · exact (composed_unexpected _).bind fun _ => (composed_skipHead headLine).bind fun _ => .pure _

theorem composed_elementHead (node : Node) (headLine : Nat) :
    Composed (elementHead held node headLine) :=
  .iterate (composed_headTurn hheld headLine) node

theorem composed_elementBody (node : Node) : Composed (elementBody held node) := by
  refine .bind .get fun _ => (composed_check _).bind fun _ => (composed_peekKind 1).bind fun _ => ?_
  refine (composed_check _).bind fun _ => .ite ?_ (.ite ?_ (.pure _))
  · exact composed_braced (composed_bodyItem hheld) node
  · exact composed_advance.bind fun _ => composed_advance.bind fun _ =>
      (composed_use _).bind fun _ => composed_indentedBody hheld node

/-! ## Elements -/

theorem composed_elementRest (node : Node) (headLine : Nat) :
    Composed (elementRest held node headLine) :=
  (composed_elementName node headLine).bind fun _ => (composed_templateParams _).bind fun _ =>
    (composed_elementTemplate _ headLine).bind fun _ =>
      (composed_elementHead hheld _ headLine).bind fun _ => composed_elementBody hheld _

theorem composed_genericElement (kind : NodeKind) : Composed (genericElement held kind) :=
  composed_current.bind fun keyword => composed_advance.bind fun _ =>
    .bind (.deeper (composed_refuseElement _) (composed_elementRest hheld _ keyword.line))
      fun _ => composed_close _ _

theorem composed_exported : Composed (exported held) :=
  composed_startPosition.bind fun start => composed_advance.bind fun _ =>
    .bind (.deeper (composed_refuseElement _) (hheld.element.bind fun _ => .pure _))
      fun _ => composed_close _ start

theorem composed_logicTurn (found : Node × LogicBlock) : Composed (logicTurn held found) := by
  obtain ⟨node, block⟩ := found
  refine composed_currentKind.bind fun kind => ?_
  split
  · exact (composed_logicItem block).bind fun _ => .pure _
  · exact (composed_attachDirective hheld true node).bind fun _ => .pure _
  · exact (composed_unexpected _).bind fun _ => composed_synchronize.bind fun _ => .pure _

theorem composed_logicRest (node : Node) (headLine : Nat) :
    Composed (logicRest held node headLine) := by
  refine (composed_elementName node headLine).bind fun _ => (composed_check _).bind fun _ =>
    .ite ?_ ?_
  · exact (composed_braced (composed_logicTurn hheld) _).bind fun _ => .pure _
  · exact (composed_unexpected _).bind fun _ => composed_synchronize.bind fun _ => .pure _

theorem composed_logicElement : Composed (logicElement held) :=
  composed_current.bind fun keyword => composed_advance.bind fun _ => (composed_use _).bind fun _ =>
    .bind (.deeper (composed_refuseElement _) (composed_logicRest hheld _ keyword.line))
      fun _ => composed_close _ _

theorem composed_machineItem (found : Node × StateMachine) : Composed (machineItem held found) := by
  obtain ⟨node, machine⟩ := found
  refine composed_current.bind fun token => (composed_peekKind 1).bind fun next => ?_
  refine .ite ?_ (.ite ?_ (.ite ?_ (.ite ?_ (.ite ?_ (.ite ?_ ?_)))))
  · exact (composed_attachDirective hheld true node).bind fun _ => .pure _
  · exact (composed_initialState machine).bind fun _ => .pure _
  · refine composed_advance.bind fun _ => composed_machineState.bind fun state => ?_
    cases state with
    | none => exact .pure _
    | some state => exact .pure _
  · exact composed_advance.bind fun _ =>
      (composed_braced composed_transitionItem machine).bind fun _ => .pure _
  · exact (composed_addTransition machine).bind fun _ => .pure _
  · exact (composed_property node).bind fun _ => .pure _
  · exact (composed_unexpected _).bind fun _ => composed_synchronize.bind fun _ => .pure _

theorem composed_machineBody (node : Node) : Composed (machineBody held node) :=
  (composed_check _).bind fun _ => .ite (composed_braced (composed_machineItem hheld) _)
    ((composed_unexpected _).bind fun _ => composed_synchronize.bind fun _ => .pure _)

theorem composed_machineRest (node : Node) (keyword : Token) :
    Composed (machineRest held node keyword) := by
  refine (composed_elementName node keyword.line).bind fun node =>
    (composed_machineBody hheld node).bind fun found => ?_
  exact .ite ((composed_report Code.noConfusion).bind fun _ => .pure _) (.pure _)

theorem composed_stateMachine : Composed (stateMachine held) :=
  composed_current.bind fun keyword => composed_advance.bind fun _ => (composed_use _).bind fun _ =>
    .bind (.deeper (composed_refuseElement _) (composed_machineRest hheld _ keyword))
      fun _ => composed_close _ _

omit hheld in
theorem composed_checkKeyword (keyword : Token) : Composed (checkKeyword keyword) := by
  refine .ite (.pure _) (.bind .read fun _ => composed_report ?_)
  rw [Diagnostic.unknownKeyword, Diagnostic.code_withCandidates]
  exact Code.noConfusion

theorem composed_elementWith : Composed (elementWith held) := by
  refine composed_current.bind fun token => (composed_peekKind 1).bind fun _ => ?_
  refine .ite (composed_exported hheld) (.ite composed_function (.ite (composed_logicElement hheld)
    (.ite (composed_stateMachine hheld) (.ite ?_ (.ite ?_ (.ite ?_ ?_))))))
  · exact (composed_use _).bind fun _ => composed_genericElement hheld _
  · exact (composed_use _).bind fun _ => composed_genericElement hheld _
  · exact composed_genericElement hheld _
  · exact (composed_checkKeyword token).bind fun _ => composed_genericElement hheld _

end

end Parser
end SceneLang

/-!
## Directives and whole texts

However many levels are left, elements and directives are read by composed parsers, and so are the
elements of a whole text.
-/

namespace SceneLang
namespace Parser

/-! ## Conditions and imports -/

theorem composed_skipCondition : Composed skipCondition :=
  composed_skipUntil (composed_currentKind.bind fun _ => .pure _)

theorem composed_conditionText : Composed conditionText :=
  composed_current.bind fun _ => (composed_valueOr composed_skipCondition).bind fun _ =>
    (composed_setValueFailed false).bind fun _ => composed_previousSpan.bind fun _ =>
      (composed_sliceBetween _ _).bind fun _ => .pure _

theorem composed_loopVariable : Composed loopVariable :=
  composed_current.bind fun _ => .ite (composed_advance.bind fun _ => .pure _)
    ((composed_unexpected _).bind fun _ => .pure _)

theorem composed_elseAhead : Composed elseAhead := by
  refine .bind .get fun state => ?_
  split
  · exact .throw _
  · split
    · exact .throw _
    · exact .pure _

theorem composed_skipNewlines : Composed skipNewlines :=
  composed_skipUntil ((composed_check _).bind fun _ => .pure _)

theorem composed_importSource : Composed importSource := by
  refine composed_current.bind fun _ => .ite ?_ ((composed_unexpected _).bind fun _ => .pure _)
  exact composed_advance.bind fun _ => composed_current.bind fun _ =>
    .ite (composed_advance.bind fun _ => .pure _) ((composed_unexpected _).bind fun _ => .pure _)

theorem composed_importAlias : Composed importAlias :=
  composed_current.bind fun _ =>
    .ite (composed_advance.bind fun _ => composed_expectName _) (.pure _)

theorem composed_importName (names : List ImportName) : Composed (importName names) := by
  refine composed_current.bind fun _ => .ite ?_ ?_
  · exact composed_advance.bind fun _ => composed_importAlias.bind fun _ => .pure _
  · exact (composed_unexpected _).bind fun _ => composed_advance.bind fun _ => .pure _

theorem composed_importDecl : Composed importDecl := by
  refine (composed_use _).bind fun _ => composed_current.bind fun token => ?_
  split
  · exact composed_advance.bind fun _ => composed_importAlias.bind fun _ => .pure _
  · exact (composed_braced composed_importName []).bind fun _ =>
      composed_importSource.bind fun _ => .pure _
  · exact composed_advance.bind fun _ => composed_importSource.bind fun _ => .pure _
  · exact (composed_unexpected _).bind fun _ => .pure _

theorem composed_importDirective : Composed importDirective := by
  refine composed_importDecl.bind fun decl => ?_
  cases decl with
  | none => exact .pure _
  | some decl => exact .bind (.modify (.imports decl)) fun _ => .pure _

/-! ## Traits and hooks -/

theorem composed_reportUnknown (name : Token) : Composed (reportUnknown name) := by
  refine .bind .read fun context => ?_
  have htrait : (Diagnostic.unknownTrait context.options.strict name.text name.span
      name.position).code ≠ .nestingTooDeep := by
    rw [Diagnostic.unknownTrait, Diagnostic.code_withCandidates]
    exact Code.noConfusion
  have hdirective : (Diagnostic.unknownDirective context.options.strict name.text name.span
      name.position).code ≠ .nestingTooDeep := by
    rw [Diagnostic.unknownDirective, Diagnostic.code_withCandidates]
    exact Code.noConfusion
  dsimp only
  generalize hd : (if Vocabulary.isTrait name.text ||
      !(suggest name.text Vocabulary.traits).isEmpty then _ else _ : Diagnostic) = d
  have hcode : d.code ≠ .nestingTooDeep := by
    rw [← hd]
    split
    · exact htrait
    · exact hdirective
  exact .ite (composed_report hcode) (.ite (composed_report hcode) (composed_report hcode))

theorem composed_traitDirective (name : Token) (allowBody : Bool) :
    Composed (traitDirective name allowBody) := by
  refine .bind .read fun context => (composed_directiveConfig allowBody).bind fun config => ?_
  exact .ite ((composed_use _).bind fun _ => .pure _)
    ((composed_reportUnknown name).bind fun _ => .pure _)

theorem composed_lifecycle (hook : String) : Composed (lifecycle hook) := by
  refine composed_paramList.bind fun _ => (composed_check _).bind fun _ => .ite ?_ ?_
  · exact composed_blockText.bind fun _ => .pure _
  · exact .bind (.pure "") fun _ => .pure _

section

variable {held : Held} (hheld : held.Composed)
include hheld

/-! ## Control flow -/

theorem composed_controlItem (nodes : List Node) : Composed (controlItem held nodes) := by
  refine composed_startPosition.bind fun start => (composed_bodyItem hheld _).bind fun item => ?_
  dsimp only
  split
  · exact .pure _
  · exact .ite ((composed_close item start).bind fun _ => .pure _) (.pure _)

theorem composed_controlBody : Composed (controlBody held) :=
  (composed_braced (composed_controlItem hheld) []).bind fun _ => .pure _

theorem composed_loop (form : LoopForm) : Composed (loop held form) := by
  have hrest (item : String) : Composed do
      let iterable ← conditionText
      return Directive.loop form item iterable (← controlBody held) :=
    composed_conditionText.bind fun _ => (composed_controlBody hheld).bind fun _ => .pure _
  refine (composed_use _).bind fun _ => composed_loopVariable.bind fun item =>
    composed_current.bind fun _ => .ite ?_ ?_
  · exact composed_advance.bind fun _ => hrest item
  · exact (composed_unexpected _).bind fun _ => hrest item

theorem composed_elseBranch (start : Position) : Composed (elseBranch held start) := by
  refine composed_current.bind fun _ => (composed_peek 1).bind fun _ =>
    .ite ?_ (.ite ?_ (composed_controlBody hheld))
  · exact (composed_attachDirective hheld true _).bind fun _ =>
      (composed_close _ start).bind fun _ => .pure _
  · exact composed_advance.bind fun _ => hheld.conditional.bind fun _ =>
      (composed_close _ start).bind fun _ => .pure _

theorem composed_conditionalWith : Composed (conditionalWith held) := by
  refine (composed_use _).bind fun _ => composed_conditionText.bind fun condition =>
    (composed_controlBody hheld).bind fun body => composed_elseAhead.bind fun _ => .ite ?_ (.pure _)
  exact composed_skipNewlines.bind fun _ => composed_startPosition.bind fun start =>
    composed_advance.bind fun _ => composed_advance.bind fun _ =>
      (composed_elseBranch hheld start).bind fun _ => .pure _

/-! ## Directives -/

theorem composed_directiveNamed (name : Token) (span : Span) (position : Position)
    (allowBody : Bool) : Composed (directiveNamed held name span position allowBody) := by
  refine .ite ?_ (.ite ?_ (.ite ?_ (.ite ?_ (.ite ?_ (.bind .read fun _ =>
    .ite composed_importDirective (.ite ?_ (.ite ?_ ?_)))))))
  · exact (composed_loop hheld .plain).bind fun _ => .pure _
  · exact (composed_loop hheld .each).bind fun _ => .pure _
  · exact (composed_use _).bind fun _ => composed_conditionText.bind fun _ =>
      (composed_controlBody hheld).bind fun _ => .pure _
  · exact (composed_conditionalWith hheld).bind fun _ => .pure _
  · exact (composed_report Code.noConfusion).bind fun _ => (composed_check _).bind fun _ =>
      .ite (composed_skipBalanced.bind fun _ => .pure _) (.pure _)
  · exact (composed_directiveConfig true).bind fun _ => .pure _
  · exact (composed_directiveConfig true).bind fun _ => .pure _
  · split
    · exact (composed_directiveConfig allowBody).bind fun _ => .pure _
    · split
      · exact (composed_directiveConfig allowBody).bind fun _ => .pure _
      · exact .ite ((composed_lifecycle _).bind fun _ => .pure _)
          (composed_traitDirective name allowBody)

theorem composed_directiveWith (allowBody : Bool) : Composed (directiveWith held allowBody) := by
  refine composed_current.bind fun mark => composed_advance.bind fun _ =>
    composed_current.bind fun name => .ite ?_ ((composed_unexpected _).bind fun _ => .pure _)
  exact composed_advance.bind fun _ =>
    (composed_directiveNamed hheld name _ _ allowBody).bind fun _ => .pure _

end

theorem composed_level (levels : Nat) : (level levels).Composed := by
  induction levels with
  | zero => exact ⟨.throw _, fun _ => .throw _, .throw _⟩
  | succ levels ih =>
      exact ⟨composed_elementWith ih, composed_directiveWith ih, composed_conditionalWith ih⟩

/-! ## The top level -/

theorem composed_skipLayout : Composed skipLayout :=
  composed_skipUntil (composed_currentKind.bind fun _ => .pure _)

theorem composed_attachAll (node : Node) (placed : List PlacedDirective) :
    Composed (attachAll node placed) := by
  unfold attachAll
  induction placed generalizing node with
  | nil => exact .pure node
  | cons first rest ih =>
      rw [List.foldlM_cons]
      exact (composed_attach node first).bind ih

theorem composed_strayToken : Composed strayToken :=
  (composed_unexpected _).bind fun _ => (composed_check _).bind fun _ =>
    .ite composed_advance composed_synchronize

section

variable {held : Held} (hheld : held.Composed)
include hheld

theorem composed_leadingTurn (placed : List PlacedDirective) :
    Composed (leadingTurn held placed) :=
  (composed_check _).bind fun _ => .ite
    ((hheld.directive true).bind fun _ => composed_skipLayout.bind fun _ => .pure _) (.pure _)

theorem composed_leadingDirectives : Composed (leadingDirectives held) :=
  .bind (.iterate (composed_leadingTurn hheld) []) fun _ => .pure _

theorem composed_topTurn (found : List Node × Node) : Composed (topTurn held found) := by
  obtain ⟨roots, loose⟩ := found
  refine composed_skipLayout.bind fun _ => (composed_leadingDirectives hheld).bind fun leading =>
    composed_currentKind.bind fun kind => ?_
  split
  · exact (composed_attachAll loose leading).bind fun _ => .pure _
  · exact hheld.element.bind fun _ => .pure _
  · exact (composed_attachAll loose leading).bind fun _ =>
      composed_strayToken.bind fun _ => .pure _

theorem composed_topLevel (loose : Node) : Composed (topLevel held loose) :=
  .iterate (composed_topTurn hheld) _

end

end Parser
end SceneLang
