import SceneLang.Proofs.Margins.Steps
import SceneLang.Proofs.Parser.ControlBodies
import SceneLang.Proofs.Strict.Elements

/-!
# Directives in strict and lenient parses

The words that may be unknown are the keyword of an element and the name of a directive.  A strict
parse reports an error where a lenient one reports a warning, and both have read the same by then.
-/

namespace SceneLang
namespace Parser

variable {α β : Type} {base : Prop}

/-! ## Blocks of logic -/

theorem blind_logicValue : Blind logicValue :=
  blind_valueOr blind_synchronize

theorem blind_logicItem (block : LogicBlock) : Blind (logicItem block) := by
  refine blind_current.andThen fun token => (blind_peekKind 1).andThen fun next => ?_
  dsimp only
  refine .ite (fun _ => ?_) fun _ => .ite (fun _ => ?_) fun _ => .ite (fun _ => ?_) fun _ =>
    .ite (fun _ => ?_) fun _ => ?_
  · refine blind_advance.andThen fun _ => (blind_expectName _).andThen fun name => ?_
    cases name with
    | none => exact blind_synchronize.andThen fun _ => blind_pure _
    | some name =>
        exact blind_paramList.andThen fun _ => blind_blockText.andThen fun _ => blind_pure _
  · refine blind_advance.andThen fun _ => (blind_expectName _).andThen fun name => ?_
    cases name with
    | none => exact blind_synchronize.andThen fun _ => blind_pure _
    | some name =>
        refine blind_currentKind.andThen fun _ => .ite (fun _ => ?_) fun _ => ?_
        · exact blind_advance.andThen fun _ => blind_logicValue.andThen fun _ => blind_pure _
        · exact (blind_unexpected _).andThen fun _ => blind_logicValue.andThen fun _ => blind_pure _
  · exact blind_advance.andThen fun _ => blind_advance.andThen fun _ =>
      blind_logicValue.andThen fun _ => blind_pure _
  · exact blind_advance.andThen fun _ => blind_paramList.andThen fun _ =>
      blind_blockText.andThen fun _ => .ite (fun _ => blind_pure _) fun _ => blind_pure _
  · exact (blind_unexpected _).andThen fun _ => blind_synchronize.andThen fun _ => blind_pure _

section

variable {held : Held} (hheld : held.KeepsPace)
include hheld

theorem paces_logicTurn (found found' : Node × LogicBlock) (hblock : SameSecond found found') :
    Paces (found = found') SameSecond (logicTurn held found)
      (logicTurn held found') := by
  obtain ⟨node, block⟩ := found
  obtain ⟨node', _⟩ := found'
  obtain rfl : block = _ := hblock
  refine blind_currentKind.andThen fun kind => ?_
  split
  · exact (blind_logicItem block).andThen fun block => .pure rfl fun hsame => by
      rw [(Prod.mk.inj hsame).1]
  · refine ((paces_attachDirective hheld true node node').of_imp fun hsame =>
      (Prod.mk.inj hsame).1).bind fun _ _ _ => .pure rfl ?_
    rintro ⟨_, rfl⟩
    rfl
  · exact (blind_unexpected _).andThen fun _ => blind_synchronize.andThen fun _ => .pure rfl id

theorem paces_logicRest (node : Node) (headLine : Nat) :
    Paces True Loosely (logicRest held node headLine) (logicRest held node headLine) := by
  refine (blind_elementName node headLine).andThen fun node => (blind_check _).andThen fun _ => ?_
  refine .ite (fun _ => ?_) fun _ => ?_
  · have hbraced : Paces ((node, LogicBlock.empty) = (node, .empty)) SameSecond
        (braced (node, .empty) (logicTurn held)) (braced (node, .empty) (logicTurn held)) :=
      paces_braced rfl (paces_logicTurn hheld)
    refine (hbraced.of_imp fun _ => rfl).bind fun found found' _ => .pure trivial ?_
    rintro ⟨_, rfl⟩
    rfl
  · exact (blind_unexpected _).andThen fun _ => blind_synchronize.andThen fun _ =>
      .pure trivial fun _ => rfl

theorem paces_logicElement : Paces True Loosely (logicElement held) (logicElement held) :=
  blind_current.andThen fun keyword => blind_advance.andThen fun _ => (blind_use _).andThen fun _ =>
    paces_closed _ _ (paces_logicRest hheld _ keyword.line)

end

/-! ## State machines -/

theorem blind_stateItem (state : MachineState) : Blind (stateItem state) := by
  refine blind_current.andThen fun _ => (blind_peekKind 1).andThen fun _ => .ite (fun _ => ?_)
    fun _ => .ite (fun _ => ?_) fun _ => .ite (fun _ => ?_) fun _ => ?_
  · exact blind_advance.andThen fun _ => blind_captureBlock.andThen fun _ => blind_pure _
  · exact blind_advance.andThen fun _ => blind_captureBlock.andThen fun _ => blind_pure _
  · exact blind_advance.andThen fun _ => blind_advance.andThen fun _ =>
      blind_logicValue.andThen fun _ => blind_pure _
  · exact (blind_unexpected _).andThen fun _ => blind_synchronize.andThen fun _ => blind_pure _

theorem blind_machineState : Blind machineState := by
  refine (blind_expectName _).andThen fun name => ?_
  cases name with
  | none => exact blind_pure _
  | some name =>
      refine (blind_check _).andThen fun _ => .ite (fun _ => ?_) fun _ => blind_pure _
      exact (blind_braced blind_stateItem).andThen fun _ => blind_pure _

theorem blind_transition : Blind transition := by
  refine (blind_expectName _).andThen fun source => ?_
  cases source with
  | none => exact blind_pure _
  | some source =>
      refine (blind_eat _).andThen fun _ => .ite (fun _ => ?_) fun _ => ?_
      · refine (blind_expectName _).andThen fun target => ?_
        cases target with
        | none => exact blind_synchronize.andThen fun _ => blind_pure _
        | some target =>
            refine (blind_eat _).andThen fun _ => .ite (fun _ => ?_) fun _ => ?_
            · exact (blind_expectName _).andThen fun _ => blind_pure _
            · exact (blind_pure none).andThen fun _ => blind_pure _
      · exact (blind_unexpected _).andThen fun _ => blind_synchronize.andThen fun _ => blind_pure _

theorem blind_addTransition (machine : StateMachine) : Blind (addTransition machine) := by
  refine blind_transition.andThen fun found => ?_
  cases found with
  | none => exact blind_pure _
  | some found => exact blind_pure _

theorem blind_initialName (machine : StateMachine) (keyword : Token) :
    Blind (initialName machine keyword) := by
  refine (blind_expectName _).andThen fun name => ?_
  cases name with
  | none => exact blind_synchronize.andThen fun _ => blind_pure _
  | some name =>
      refine .ite (fun _ => ?_) fun _ => blind_pure _
      exact (blind_report _).andThen fun _ => blind_pure _

theorem blind_initialState (machine : StateMachine) : Blind (initialState machine) :=
  blind_current.andThen fun keyword => blind_advance.andThen fun _ =>
    blind_currentKind.andThen fun _ => .ite
      (fun _ => blind_advance.andThen fun _ => blind_initialName machine keyword)
      fun _ => (blind_report _).andThen fun _ => blind_initialName machine keyword

theorem blind_transitionItem (machine : StateMachine) : Blind (transitionItem machine) :=
  blind_currentKind.andThen fun _ => .ite (fun _ => blind_addTransition machine) fun _ =>
    (blind_unexpected _).andThen fun _ => blind_synchronize.andThen fun _ => blind_pure _

section

variable {held : Held} (hheld : held.KeepsPace)
include hheld

theorem paces_machineItem (found found' : Node × StateMachine) (hmachine : SameSecond found found') :
    Paces (found = found') SameSecond (machineItem held found)
      (machineItem held found') := by
  obtain ⟨node, machine⟩ := found
  obtain ⟨node', _⟩ := found'
  obtain rfl : machine = _ := hmachine
  have hpair {p q : Parser Node} (h : Paces (node = node') Loosely p q) :
      Paces ((node, machine) = (node', machine)) SameSecond
        (do return (← p, machine)) (do return (← q, machine)) := by
    refine (h.of_imp fun hsame => (Prod.mk.inj hsame).1).bind fun _ _ _ => .pure rfl ?_
    rintro ⟨_, rfl⟩
    rfl
  have hmachine (machine' : StateMachine) :
      Paces ((node, machine) = (node', machine)) SameSecond
        (pure (node, machine')) (pure (node', machine')) :=
    .pure rfl fun hsame => by rw [(Prod.mk.inj hsame).1]
  refine blind_current.andThen fun _ => (blind_peekKind 1).andThen fun _ => .ite (fun _ => ?_)
    fun _ => .ite (fun _ => ?_) fun _ => .ite (fun _ => ?_) fun _ => .ite (fun _ => ?_)
    fun _ => .ite (fun _ => ?_) fun _ => .ite (fun _ => ?_) fun _ => ?_
  · exact hpair (paces_attachDirective hheld true node node')
  · exact (blind_initialState machine).andThen hmachine
  · refine blind_advance.andThen fun _ => blind_machineState.andThen fun state => ?_
    cases state with
    | none => exact hmachine _
    | some state => exact hmachine _
  · exact blind_advance.andThen fun _ => (blind_braced blind_transitionItem).andThen hmachine
  · exact (blind_addTransition machine).andThen hmachine
  · exact hpair (paces_property node node')
  · exact (blind_unexpected _).andThen fun _ => blind_synchronize.andThen fun _ => hmachine _

theorem paces_machineBody (node : Node) :
    Paces True SameSecond (machineBody held node)
      (machineBody held node) := by
  refine (blind_check _).andThen fun _ => .ite (fun _ => ?_) fun _ => ?_
  · have hbraced : Paces ((node, StateMachine.empty) = (node, .empty)) SameSecond
        (braced (node, .empty) (machineItem held)) (braced (node, .empty) (machineItem held)) :=
      paces_braced rfl (paces_machineItem hheld)
    exact hbraced.of_imp fun _ => rfl
  · exact (blind_unexpected _).andThen fun _ => blind_synchronize.andThen fun _ =>
      .pure rfl fun _ => rfl

theorem paces_machineRest (node : Node) (keyword : Token) :
    Paces True Loosely (machineRest held node keyword) (machineRest held node keyword) := by
  refine (blind_elementName node keyword.line).andThen fun node => ?_
  refine (paces_machineBody hheld node).bind ?_
  rintro ⟨node, machine⟩ ⟨node', _⟩ (rfl : machine = _)
  refine .ite (fun _ => ?_) fun _ => .pure trivial ?_
  · exact .afterError rfl (.pure trivial False.elim)
  · rintro ⟨_, hfound⟩
    rw [(Prod.mk.inj hfound).1]

theorem paces_stateMachine : Paces True Loosely (stateMachine held) (stateMachine held) :=
  blind_current.andThen fun keyword => blind_advance.andThen fun _ => (blind_use _).andThen fun _ =>
    paces_closed _ _ (paces_machineRest hheld _ keyword)

end

/-! ## Keywords -/

theorem isError_unknownKeyword (word : String) (span : Span) (position : Position) :
    (Diagnostic.unknownKeyword true word span position).isError = true := by
  rw [Diagnostic.unknownKeyword, Diagnostic.isError_withCandidates]
  rfl

theorem paces_checkKeyword (keyword : Token) :
    Paces base (· = ·) (checkKeyword keyword) (checkKeyword keyword) := by
  refine .ite (fun _ => .pure rfl fun _ => rfl) fun _ => .read fun source options => ?_
  refine paces_report fun hwarning => ?_
  have herror := isError_unknownKeyword keyword.text keyword.span keyword.position
  exact absurd (herror.symm.trans hwarning) Bool.noConfusion

section

variable {held : Held} (hheld : held.KeepsPace)
include hheld

theorem paces_elementWith : Paces True Loosely (elementWith held) (elementWith held) := by
  refine blind_current.andThen fun token => (blind_peekKind 1).andThen fun _ => ?_
  refine .ite (fun _ => paces_exported hheld) fun _ => .ite (fun _ => ?_) fun _ =>
    .ite (fun _ => paces_logicElement hheld) fun _ => .ite (fun _ => paces_stateMachine hheld)
    fun _ => .ite (fun _ => ?_) fun _ => .ite (fun _ => ?_) fun _ => .ite (fun _ => ?_) fun _ => ?_
  · exact blind_function.loosely
  · exact (blind_use _).andThen fun _ => paces_genericElement hheld _
  · exact (blind_use _).andThen fun _ => paces_genericElement hheld _
  · exact paces_genericElement hheld _
  · exact (paces_checkKeyword token).andThen fun _ => paces_genericElement hheld _

/-! ## Control flow -/

omit hheld in
theorem blind_skipCondition : Blind skipCondition :=
  blind_skipUntil (blind_currentKind.andThen fun _ => blind_pure _)

omit hheld in
theorem blind_conditionText : Blind conditionText :=
  blind_current.andThen fun _ => (blind_valueOr blind_skipCondition).andThen fun _ =>
    (blind_setValueFailed false).andThen fun _ => blind_previousSpan.andThen fun _ =>
      (blind_sliceBetween _ _).andThen fun _ => blind_pure _

omit hheld in
theorem still_keepItem (start : Position) (item : Node) (nodes : List Node) :
    Still (keepItem start item nodes) := by
  unfold keepItem
  dsimp only
  split
  · exact still_pure _
  · exact .ite ((still_close item start).bind fun _ => still_pure _) (still_pure _)

omit hheld in
theorem blind_keepItem (start : Position) (item : Node) (nodes : List Node) :
    Blind (keepItem start item nodes) := by
  unfold keepItem
  dsimp only
  split
  · exact blind_pure _
  · exact .ite (fun _ => (blind_close item start).andThen fun _ => blind_pure _)
      fun _ => blind_pure _

theorem paces_controlItem (nodes nodes' : List Node) :
    Paces (nodes = nodes') Loosely (controlItem held nodes) (controlItem held nodes') := by
  refine blind_startPosition.andThen fun start => ?_
  refine ((paces_bodyItem hheld _ _).of_imp fun _ => rfl).bind fun item item' _ => ?_
  refine .of_still (still_keepItem start item nodes) (still_keepItem start item' nodes')
    (blind_keepItem start item nodes) ?_
  rintro ⟨rfl, rfl⟩
  rfl

theorem paces_controlBody : Paces True Loosely (controlBody held) (controlBody held) := by
  have hbraced : Paces (([] : List Node) = []) Loosely (braced [] (controlItem held))
      (braced [] (controlItem held)) :=
    paces_braced trivial fun nodes nodes' _ => paces_controlItem hheld nodes nodes'
  refine (hbraced.of_imp fun _ => rfl).bind fun nodes nodes' _ => .pure trivial ?_
  exact fun hnodes => by rw [hnodes.2]

omit hheld in
theorem blind_loopVariable : Blind loopVariable :=
  blind_current.andThen fun _ => .ite (fun _ => blind_advance.andThen fun _ => blind_pure _)
    fun _ => (blind_unexpected _).andThen fun _ => blind_pure _

theorem paces_loop (form : LoopForm) : Paces True Loosely (loop held form) (loop held form) := by
  have hrest (item : String) : Paces True Loosely
      (do
        let iterable ← conditionText
        return Directive.loop form item iterable (← controlBody held))
      (do
        let iterable ← conditionText
        return Directive.loop form item iterable (← controlBody held)) := by
    refine blind_conditionText.andThen fun iterable => ?_
    refine (paces_controlBody hheld).bind fun nodes nodes' _ => .pure trivial ?_
    exact fun hnodes => by rw [hnodes.2]
  refine (blind_use _).andThen fun _ => blind_loopVariable.andThen fun item =>
    blind_current.andThen fun _ => .ite (fun _ => ?_) fun _ => ?_
  · exact blind_advance.andThen fun _ => hrest item
  · exact (blind_unexpected _).andThen fun _ => hrest item

omit hheld in
theorem State.behindBreaks_withLog (state : State) (log : Log) :
    (state.withLog log).behindBreaks = state.behindBreaks := by
  rw [behindBreaks, behindBreaks, visibleFrom_withLog]

omit hheld in
theorem blind_elseAhead : Blind elseAhead := by
  refine .get fun state log => ?_
  rw [State.behindBreaks_withLog]
  split
  · exact .throw _
  · simp only [State.braceDepth_withLog]
    split
    · exact .throw _
    · exact blind_pure _

theorem paces_elseBranch (start : Position) :
    Paces True Loosely (elseBranch held start) (elseBranch held start) := by
  have hclosed {p : Parser Node} (h : Paces True Loosely p p) : Paces True Loosely
      (do return [← close (← p) start]) (do return [← close (← p) start]) := by
    refine h.bind fun node node' _ => ?_
    refine ((paces_close start).of_imp And.right).bind fun _ _ _ => .pure trivial ?_
    exact fun hsame => by rw [hsame.2]
  refine blind_current.andThen fun _ => (blind_peek 1).andThen fun _ => .ite (fun _ => ?_)
    fun _ => .ite (fun _ => ?_) fun _ => paces_controlBody hheld
  · exact hclosed ((paces_attachDirective hheld true _ _).of_imp fun _ => rfl)
  · refine blind_advance.andThen fun _ => hheld.conditional.bind fun directive directive' _ => ?_
    refine ((paces_close start).of_imp ?_).bind fun _ _ _ => .pure trivial ?_
    · rintro ⟨_, rfl⟩
      rfl
    · exact fun hsame => by rw [hsame.2]

omit hheld in
theorem blind_skipNewlines : Blind skipNewlines :=
  blind_skipUntil ((blind_check _).andThen fun _ => blind_pure _)

theorem paces_conditionalWith :
    Paces True Loosely (conditionalWith held) (conditionalWith held) := by
  refine (blind_use _).andThen fun _ => blind_conditionText.andThen fun condition => ?_
  refine (paces_controlBody hheld).bind fun body body' _ => ?_
  refine blind_elseAhead.andThen fun _ => .ite (fun _ => ?_) fun _ => .pure trivial ?_
  · refine blind_skipNewlines.andThen fun _ => blind_startPosition.andThen fun start => ?_
    refine blind_advance.andThen fun _ => blind_advance.andThen fun _ => ?_
    refine ((paces_elseBranch hheld start).of_imp fun _ => trivial).bind fun _ _ _ =>
      .pure trivial ?_
    rintro ⟨⟨_, rfl⟩, rfl⟩
    rfl
  · exact fun hbody => by rw [hbody.2]

/-! ## Imports -/

omit hheld in
theorem blind_importSource : Blind importSource := by
  refine blind_current.andThen fun _ => .ite (fun _ => ?_) fun _ => ?_
  · refine blind_advance.andThen fun _ => blind_current.andThen fun _ => .ite (fun _ => ?_) fun _ => ?_
    · exact blind_advance.andThen fun _ => blind_pure _
    · exact (blind_unexpected _).andThen fun _ => blind_pure _
  · exact (blind_unexpected _).andThen fun _ => blind_pure _

omit hheld in
theorem blind_importAlias : Blind importAlias :=
  blind_current.andThen fun _ => .ite
    (fun _ => blind_advance.andThen fun _ => blind_expectName _) fun _ => blind_pure _

omit hheld in
theorem blind_importName (names : List ImportName) : Blind (importName names) := by
  refine blind_current.andThen fun _ => .ite (fun _ => ?_) fun _ => ?_
  · exact blind_advance.andThen fun _ => blind_importAlias.andThen fun _ => blind_pure _
  · exact (blind_unexpected _).andThen fun _ => blind_advance.andThen fun _ => blind_pure _

omit hheld in
theorem blind_importDecl : Blind importDecl := by
  refine (blind_use _).andThen fun _ => blind_current.andThen fun token => ?_
  split
  · exact blind_advance.andThen fun _ => blind_importAlias.andThen fun _ => blind_pure _
  · exact (blind_braced blind_importName).andThen fun _ => blind_importSource.andThen fun _ =>
      blind_pure _
  · exact blind_advance.andThen fun _ => blind_importSource.andThen fun _ => blind_pure _
  · exact (blind_unexpected _).andThen fun _ => blind_pure _

omit hheld in
theorem blind_importDirective : Blind importDirective := by
  refine blind_importDecl.andThen fun decl => ?_
  cases decl with
  | none => exact blind_pure _
  | some decl =>
      exact Paces.andThen (blind_modify (fun _ => rfl) fun _ _ => rfl) fun _ => blind_pure _

/-! ## Directives -/

omit hheld in
/-- The diagnostic of a name that is not known. -/
def unknownName (strict : Bool) (name : Token) : Diagnostic :=
  if Vocabulary.isTrait name.text || !(suggest name.text Vocabulary.traits).isEmpty then
    Diagnostic.unknownTrait strict name.text name.span name.position
  else Diagnostic.unknownDirective strict name.text name.span name.position

omit hheld in
/-- The diagnostic with a note on what is disabled. -/
def noteDisabled (name : Token) (d : Diagnostic) : Diagnostic :=
  if Vocabulary.isTrait name.text then d.withNote "VR traits are disabled for this parse"
  else if name.text = "import" then d.withNote "imports are disabled for this parse"
  else d

omit hheld in
theorem reportUnknown_eq (name : Token) (context : Context) : reportUnknown name context =
    report (noteDisabled name (unknownName context.options.strict name)) context := by
  change (if Vocabulary.isTrait name.text then report _
    else if name.text = "import" then report _ else report _) context = _
  unfold noteDisabled
  split
  · rfl
  · split <;> rfl

omit hheld in
theorem reportUnknown_bind (name : Token) (f : Unit → Parser α) (context : Context) :
    (reportUnknown name >>= f) context =
      (report (noteDisabled name (unknownName context.options.strict name)) >>= f) context := by
  change (fun state => reportUnknown name context state >>= fun r => f r.1 context r.2) = _
  rw [reportUnknown_eq]
  rfl

omit hheld in
theorem isError_noteDisabled (name : Token) :
    (noteDisabled name (unknownName true name)).isError = true := by
  have hunknown : (unknownName true name).isError = true := by
    unfold unknownName
    split
    · rw [Diagnostic.unknownTrait, Diagnostic.isError_withCandidates]
      rfl
    · rw [Diagnostic.unknownDirective, Diagnostic.isError_withCandidates]
      rfl
  unfold noteDisabled
  split
  · exact hunknown
  · split
    · exact hunknown
    · exact hunknown

omit hheld in
/-- A strict parse drops what a lenient one keeps only after it has reported an error. -/
theorem paces_traitDirective (name : Token) (allowBody : Bool) :
    Paces True Loosely (traitDirective name allowBody) (traitDirective name allowBody) := by
  refine .read fun source options => (blind_directiveConfig allowBody).andThen fun config => ?_
  refine .ite (fun _ => (blind_use _).andThen fun _ => .pure trivial fun _ => rfl) fun _ => ?_
  have hdropped : Paces True Loosely
      (do
        report (noteDisabled name (unknownName true name))
        return none)
      (do
        report (noteDisabled name (unknownName false name))
        return some (Directive.generic name.text config)) :=
    .afterError (isError_noteDisabled name) (.pure trivial False.elim)
  intro source options state log
  rw [reportUnknown_bind, reportUnknown_bind]
  exact hdropped source options state log

omit hheld in
theorem blind_lifecycle (hook : String) : Blind (lifecycle hook) := by
  refine blind_paramList.andThen fun _ => (blind_check _).andThen fun _ => .ite (fun _ => ?_) ?_
  · exact blind_blockText.andThen fun _ => blind_pure _
  · exact fun _ => (blind_pure "").andThen fun _ => blind_pure _

theorem paces_directiveNamed (name : Token) (span : Span) (position : Position)
    (allowBody : Bool) : Paces True Loosely (directiveNamed held name span position allowBody)
      (directiveNamed held name span position allowBody) := by
  have hsome {p : Parser Directive} (h : Paces True Loosely p p) :
      Paces True Loosely (do return some (← p)) (do return some (← p)) :=
    h.bind fun _ _ _ => .pure trivial fun hsame => congrArg some hsame.2
  refine .ite (fun _ => hsome (paces_loop hheld .plain)) fun _ =>
    .ite (fun _ => hsome (paces_loop hheld .each)) fun _ => .ite (fun _ => ?_) fun _ =>
    .ite (fun _ => hsome (paces_conditionalWith hheld)) fun _ => .ite (fun _ => ?_) fun _ => ?_
  · refine (blind_use _).andThen fun _ => blind_conditionText.andThen fun _ => ?_
    refine (paces_controlBody hheld).bind fun _ _ _ => .pure trivial ?_
    exact fun hsame => by rw [hsame.2]
  · refine (blind_report _).andThen fun _ => (blind_check _).andThen fun _ => .ite (fun _ => ?_) ?_
    · exact blind_skipBalanced.andThen fun _ => .pure trivial fun _ => rfl
    · exact fun _ => .pure trivial fun _ => rfl
  refine .read fun source options => .ite (fun _ => blind_importDirective.loosely) fun _ =>
    .ite (fun _ => ?_) fun _ => .ite (fun _ => ?_) fun _ => ?_
  · exact ((blind_directiveConfig true).andThen fun _ => blind_pure _).loosely
  · exact ((blind_directiveConfig true).andThen fun _ => blind_pure _).loosely
  cases Setting.ofName? name.text with
  | some which => exact ((blind_directiveConfig allowBody).andThen fun _ => blind_pure _).loosely
  | none =>
      cases Topic.ofName? name.text with
      | some which => exact ((blind_directiveConfig allowBody).andThen fun _ => blind_pure _).loosely
      | none =>
          refine .ite (fun _ => ?_) fun _ => paces_traitDirective name allowBody
          exact ((blind_lifecycle name.text).andThen fun _ => blind_pure _).loosely

theorem paces_directiveWith (allowBody : Bool) :
    Paces True Loosely (directiveWith held allowBody) (directiveWith held allowBody) := by
  refine blind_current.andThen fun mark => blind_advance.andThen fun _ =>
    blind_current.andThen fun name => .ite (fun _ => ?_) fun _ => ?_
  · refine blind_advance.andThen fun _ => ?_
    refine (paces_directiveNamed hheld name _ _ allowBody).bind fun _ _ _ => .pure trivial ?_
    exact fun hsame => by rw [hsame.2]
  · exact (blind_unexpected _).andThen fun _ => .pure trivial fun _ => rfl

end

/-- Elements and directives are read at the same pace, however many levels are left. -/
theorem keepsPace_level (levels : Nat) : (level levels).KeepsPace := by
  induction levels with
  | zero => exact ⟨.throw _, fun _ => .throw _, .throw _⟩
  | succ levels ih => exact ⟨paces_elementWith ih, paces_directiveWith ih, paces_conditionalWith ih⟩

end Parser
end SceneLang
