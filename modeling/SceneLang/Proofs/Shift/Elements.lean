import SceneLang.Proofs.Shift.Values

/-!
# Elements and directives that follow each other

An element or a directive further down is read to the same node or directive further down.  They
are read by parsers that know how many levels are left; with more levels left the same is read.
-/

namespace SceneLang
namespace Parser

open Movable (move)
open Fixed (move_eq)

variable {α β : Type} {bond : Bond} {i j k : Stage} {shift : Shift}

/-! ## Arguments of directives -/

theorem follows_argument : Follows bond .within .within argument argument :=
  (follows_valueOr follows_recoverInList).bind fun _ =>
    (follows_setValueFailed false).andThen fun _ => .pure rfl

theorem move_span_eq (a b : Span) : move shift a = move shift b ↔ a = b := by
  constructor
  · intro h
    have hstart := congrArg Span.start h
    have hstop := congrArg Span.stop h
    have hstart : a.start = b.start := Nat.add_right_cancel hstart
    have hstop : a.stop = b.stop := Nat.add_right_cancel hstop
    cases a
    cases b
    exact (Span.mk.injEq _ _ _ _).mpr ⟨hstart, hstop⟩
  · exact congrArg (move shift)

theorem move_push (config : TraitConfig) (value : Value) :
    (move shift config).push (move shift value) = move shift (config.push value) :=
  congrArg (fun args => (⟨args, move shift config.config⟩ : TraitConfig))
    (move_append shift config.args [value]).symm

theorem move_insert_config (config : TraitConfig) (key : String) (value : Value) :
    (move shift config).insert key (move shift value) = move shift (config.insert key value) :=
  congrArg (fun table => (⟨move shift config.args, table⟩ : TraitConfig))
    (move_insert shift key value config.config).symm

theorem follows_argumentTurn (config : TraitConfig) :
    Follows bond .within .within (argumentTurn (move bond.shift config)) (argumentTurn config) := by
  refine follows_current.bind fun token => ?_
  rw [kind_move]
  split
  · exact follows_advance.andThen fun _ => .pure rfl
  · exact (follows_unexpected _).andThen fun _ => .pure rfl
  · exact follows_advance.andThen fun _ => .pure rfl
  · refine (follows_peekKind 1).andThen fun next => .ite Iff.rfl (fun _ => ?_) fun _ => ?_
    · exact follows_advance.andThen fun _ => follows_advance.andThen fun _ =>
        follows_argument.bind fun value =>
          .pure (congrArg ForInStep.yield (move_insert_config config token.text value))
    · refine follows_argument.bind fun value => follows_current.bind fun last => ?_
      refine .ite (move_span_eq last.span token.span) (fun _ => ?_) fun _ => ?_
      · exact .pure (congrArg ForInStep.done (move_push config value))
      · exact .pure (congrArg ForInStep.yield (move_push config value))

theorem follows_arguments (line : Nat) :
    Follows bond .within .within (arguments (line + bond.shift.lines)) (arguments line) := by
  refine follows_current.bind fun token => .ite ?_ (fun _ => ?_) fun _ => .pure rfl
  · rw [kind_move, line_move, Nat.add_right_cancel_iff]
  · exact follows_advance.andThen fun _ => .iterate rfl follows_argumentTurn

theorem follows_textTurn (line : Nat) (config : TraitConfig) :
    Follows bond .within .within
      (textTurn (line + bond.shift.lines) (move bond.shift config)) (textTurn line config) := by
  refine follows_current.bind fun token => .ite ?_ (fun _ => ?_) fun _ => .pure rfl
  · rw [kind_move, line_move, Nat.add_right_cancel_iff]
  · exact follows_advance.andThen fun _ =>
      .pure (congrArg ForInStep.yield (move_push config (.string token.text)))

theorem move_addEntry (config : TraitConfig) (entry : ObjectEntry) :
    (move shift config).addEntry (move shift entry) = move shift (config.addEntry entry) := by
  cases entry with
  | field key value => exact move_insert_config config key value
  | spread value => exact move_push config (.spread value)

theorem follows_directiveConfig (allowBody : Bool) :
    Follows bond .within .within (directiveConfig allowBody) (directiveConfig allowBody) := by
  refine .previousLine fun line => (follows_arguments line).bind fun config => ?_
  refine FollowsBy.bind (.iterate rfl (follows_textTurn line)) fun config => ?_
  refine (follows_check _).andThen fun found => .ite Iff.rfl (fun _ => ?_) fun _ => .pure rfl
  refine follows_object.bind fun entries => .pure ?_
  induction entries generalizing config with
  | nil => rfl
  | cons entry rest ih =>
      refine Eq.trans ?_ (ih (config.addEntry entry))
      exact congrArg (fun config => List.foldl TraitConfig.addEntry config (move bond.shift rest))
        (move_addEntry config entry)


/-! ## Properties and bodies -/

/-- What an element holds is read to the same further down. -/
structure Held.Follows (bond : Bond) (held held' : Held) : Prop where
  element (stage : Stage) : Parser.Follows bond stage .within held.element held'.element
  directive (stage : Stage) (allowBody : Bool) :
    Parser.Follows bond stage .within (held.directive allowBody) (held'.directive allowBody)
  conditional : Parser.Follows bond .within .within held.conditional held'.conditional

variable {node node' : Node}

/-- A parser of nodes in the making. -/
abbrev FollowsDraft (bond : Bond) (i : Stage) (p q : Parser Node) : Prop :=
  FollowsBy bond i .within (Draft bond.shift) p q

theorem hasTrait_eq (h : Draft shift node node') (name : String) :
    node.hasTrait name = node'.hasTrait name := by
  rw [Node.hasTrait, Node.hasTrait, h.traits_eq, contains_move]

theorem follows_attach (h : Draft bond.shift node node') (placed : PlacedDirective) :
    FollowsBy bond i i (Draft bond.shift) (attach node (move bond.shift placed))
      (attach node' placed) := by
  obtain ⟨directive, span, position⟩ := placed
  have hattach : FollowsBy bond i i (Draft bond.shift)
      (pure (node.attach (move bond.shift directive))) (pure (node'.attach directive)) :=
    .pure (h.attach directive)
  unfold attach
  cases directive with
  | trait name config | generic name config =>
      refine .ite ?_ (fun _ => ?_) fun _ => hattach
      · rw [hasTrait_eq h]
      · exact (follows_report_of rfl).andThen fun _ => hattach
  | conditional condition body elseBody => cases elseBody <;> exact hattach
  | _ => exact hattach

theorem follows_attachDirective {held held' : Held} (hheld : held.Follows bond held')
    (allowBody : Bool) (h : Draft bond.shift node node') :
    FollowsDraft bond .within (attachDirective held allowBody node)
      (attachDirective held' allowBody node') := by
  refine (hheld.directive _ allowBody).bind fun found => ?_
  cases found with
  | some placed => exact follows_attach h placed
  | none => exact .pure h

theorem follows_close (h : Draft bond.shift node node') (start : Position) :
    Follows bond .within .within (close node (move bond.shift start)) (close node' start) :=
  (follows_locationFrom start).bind fun loc => .pure (h.place loc)

theorem follows_checkGeometry (key : Token) (value : Value) (place : Token) :
    Follows bond i i
      (checkGeometry (move bond.shift key) (move bond.shift value) (move bond.shift place))
      (checkGeometry key value place) := by
  cases value with
  | string geometry =>
      refine .ite Iff.rfl (fun _ => follows_report_of ?_) fun _ => .pure rfl
      rw [Diagnostic.unknownGeometry, Diagnostic.unknownGeometry, Diagnostic.move_withCandidates]
      rfl
  | _ => exact .pure rfl

theorem follows_checkProperty (key : Token) (value : Value) (place : Token) :
    Follows bond i i
      (checkProperty (move bond.shift key) (move bond.shift value) (move bond.shift place))
      (checkProperty key value place) := by
  unfold checkProperty Diagnostic.misspelledProperty?
  cases Vocabulary.correction? key.text with
  | none => exact follows_checkGeometry key value place
  | some correction =>
      exact (follows_report_of rfl).andThen fun _ => follows_checkGeometry key value place

theorem follows_property (h : Draft bond.shift node node') :
    FollowsDraft bond .within (property node) (property node') := by
  refine follows_current.bind fun key => follows_advance.andThen fun _ => ?_
  refine follows_currentKind.andThen fun kind => ?_
  have hrest : FollowsDraft bond .within
      (do
        let place ← current
        let read ← valueOr synchronize
        checkProperty (move bond.shift key) read place
        return { node with properties := node.properties.insert key.text read })
      (do
        let place ← current
        let read ← valueOr synchronize
        checkProperty key read place
        return { node' with properties := node'.properties.insert key.text read }) :=
    follows_current.bind fun place => (follows_valueOr follows_synchronize).bind fun read =>
      (follows_checkProperty key read place).andThen fun _ => .pure (h.with_property key.text read)
  refine .ite Iff.rfl (fun _ => ?_) fun _ => ?_
  · exact follows_advance.andThen fun _ => hrest
  · exact (follows_report_of rfl).andThen fun _ => hrest

/-- Tokens on one line are on one line further down. -/
theorem line_move_eq (a b : Token) :
    (move shift a).line = (move shift b).line ↔ a.line = b.line := by
  rw [line_move, line_move, Nat.add_right_cancel_iff]

theorem line_move_eq_add (token : Token) (line : Nat) :
    (move shift token).line = line + shift.lines ↔ token.line = line := by
  rw [line_move, Nat.add_right_cancel_iff]

theorem follows_propertyAhead : Follows bond i i propertyAhead propertyAhead := by
  refine follows_current.bind fun token => (follows_peek 1).bind fun next => ?_
  refine .ite Iff.rfl (fun _ => .pure rfl) fun _ => .ite Iff.rfl (fun _ => .pure rfl) fun _ => ?_
  have hstarts : Follows bond i i
      (pure ((move bond.shift next).kind.startsValue &&
        (move bond.shift next).line = (move bond.shift token).line))
      (pure (next.kind.startsValue && next.line = token.line)) :=
    .pure (by simp only [line_move_eq]; rfl)
  exact (follows_peekKind 2).andThen fun kind => .ite Iff.rfl (fun _ => .pure rfl) fun _ => hstarts

section

variable {held held' : Held} (hheld : held.Follows bond held')
include hheld

theorem follows_bodyItem (h : Draft bond.shift node node') :
    FollowsDraft bond .within (bodyItem held node) (bodyItem held' node') := by
  refine follows_currentKind.andThen fun kind => ?_
  split
  · exact follows_attachDirective hheld true h
  · exact follows_advance.andThen fun _ => (follows_use _).andThen fun _ =>
      (follows_valueOr follows_synchronize).bind fun read => .pure (h.with_spread read)
  · refine follows_propertyAhead.andThen fun ahead => ?_
    refine .ite Iff.rfl (fun _ => follows_property h) fun _ => ?_
    exact (hheld.element _).bind fun child => .pure (h.with_child child)
  · refine (follows_peekKind 1).andThen fun next => ?_
    refine .ite Iff.rfl (fun _ => follows_property h) fun _ => ?_
    exact (follows_unexpected _).andThen fun _ => follows_synchronize.andThen fun _ => .pure h

/-- A node in the making beside something else. -/
def DraftWith {γ : Type} (R : γ → γ → Prop) (shift : Shift) (found found' : Node × γ) : Prop :=
  Draft shift found.1 found'.1 ∧ R found.2 found'.2

theorem follows_indentedItem (h : Draft bond.shift node node') :
    FollowsDraft bond .within (indentedItem held node) (indentedItem held' node') := by
  refine .get fun state back _ hlength => (follows_bodyItem hheld h).bindBy fun value value' h' => ?_
  refine .get fun next next' _ hlength' => ?_
  rw [hlength, hlength']
  refine FollowsBy.ite Iff.rfl (fun _ => ?_) fun _ => .pure h'
  exact follows_advance.andThen fun _ => .pure h'

theorem follows_indentedTurn {found found' : Node × Nat}
    (h : DraftWith Eq bond.shift found found') :
    FollowsBy bond .within .within (StepBy (DraftWith Eq bond.shift)) (indentedTurn held found)
      (indentedTurn held' found') := by
  obtain ⟨node, further⟩ := found
  obtain ⟨node', further'⟩ := found'
  obtain ⟨hnode, hfurther⟩ := h
  cases hfurther
  refine follows_currentKind.andThen fun kind => ?_
  split
  · exact follows_advance.andThen fun _ => .pure (.yield ⟨hnode, rfl⟩)
  · exact follows_advance.andThen fun _ => .pure (.yield ⟨hnode, rfl⟩)
  · refine follows_advance.andThen fun _ => ?_
    refine .ite Iff.rfl (fun _ => .pure (.done ⟨hnode, rfl⟩)) fun _ => ?_
    exact (follows_lower _).andThen fun _ => .pure (.yield ⟨hnode, rfl⟩)
  · exact .pure (.done ⟨hnode, rfl⟩)
  · exact (follows_unexpected _).andThen fun _ => follows_advance.andThen fun _ =>
      .pure (.yield ⟨hnode, rfl⟩)
  · exact (follows_indentedItem hheld hnode).bindBy fun _ _ h' => .pure (.yield ⟨h', rfl⟩)

theorem follows_indentedBody (h : Draft bond.shift node node') :
    FollowsDraft bond .within (indentedBody held node) (indentedBody held' node') :=
  FollowsBy.bindBy (.iterateBy ⟨h, rfl⟩ fun _ _ h' => follows_indentedTurn hheld h')
    fun _ _ h' => .pure h'.1

end

/-! ## Heads of elements -/

theorem follows_givenName (h : Draft bond.shift node node') :
    FollowsDraft bond .within (givenName node) (givenName node') := by
  refine follows_current.bind fun token => ?_
  have hnamed : FollowsDraft bond .within (pure { node with name := some token.text })
      (pure { node' with name := some token.text }) :=
    .pure (h.with_name _)
  rw [kind_move]
  split
  · exact follows_advance.andThen fun _ => hnamed
  · exact (follows_reportUnterminated token).andThen fun _ => follows_advance.andThen fun _ =>
      hnamed
  · refine (follows_peekKind 1).andThen fun next => .ite Iff.rfl (fun _ => .pure h) fun _ => ?_
    exact follows_advance.andThen fun _ => hnamed
  · exact .pure h

theorem follows_givenId (h : Draft bond.shift node node') (headLine : Nat) :
    FollowsDraft bond .within (givenId node (headLine + bond.shift.lines))
      (givenId node' headLine) := by
  refine follows_current.bind fun mark => .ite ?_ (fun _ => ?_) fun _ => .pure h
  · rw [kind_move, line_move_eq_add]
  refine follows_advance.andThen fun _ => follows_current.bind fun id => ?_
  refine .ite Iff.rfl (fun _ => ?_) fun _ => ?_
  · exact follows_advance.andThen fun _ => .pure (h.with_id _)
  · exact (follows_unexpected _).andThen fun _ => .pure h

theorem follows_elementName (h : Draft bond.shift node node') (headLine : Nat) :
    FollowsDraft bond .within (elementName node (headLine + bond.shift.lines))
      (elementName node' headLine) := by
  refine follows_current.bind fun token => .ite ?_ (fun _ => .pure h) fun _ => ?_
  · rw [ne_eq, line_move_eq_add]
  · exact (follows_givenName h).bindBy fun _ _ h' => follows_givenId h' headLine

theorem follows_setTemplate (h : Draft bond.shift node node') (token : Token) :
    FollowsDraft bond .within (setTemplate node (move bond.shift token))
      (setTemplate node' token) := by
  unfold setTemplate
  rw [h.kind_eq]
  cases node'.kind with
  | element type template => exact .pure (h.with_kind (.element type (some token.text)))
  | _ => exact (follows_report_of rfl).andThen fun _ => .pure h

theorem follows_templateName (h : Draft bond.shift node node') :
    FollowsDraft bond .within (templateName node) (templateName node') := by
  refine follows_current.bind fun token => ?_
  rw [kind_move]
  split
  · exact follows_advance.andThen fun _ => follows_setTemplate h token
  · exact follows_advance.andThen fun _ => follows_setTemplate h token
  · exact (follows_reportUnterminated token).andThen fun _ => follows_advance.andThen fun _ =>
      follows_setTemplate h token
  · exact (follows_unexpected _).andThen fun _ => .pure h

theorem follows_skipHead (headLine : Nat) :
    Follows bond .within .within (skipHead (headLine + bond.shift.lines)) (skipHead headLine) := by
  refine follows_skipUntil (follows_current.bind fun token => .pure ?_)
  simp only [ne_eq, line_move_eq_add]
  rfl

section

variable {held held' : Held} (hheld : held.Follows bond held')
include hheld

theorem follows_headTurn (headLine : Nat) (h : Draft bond.shift node node') :
    FollowsBy bond .within .within (StepBy (Draft bond.shift))
      (headTurn held (headLine + bond.shift.lines) node) (headTurn held' headLine node') := by
  refine follows_current.bind fun token => .ite ?_ (fun _ => .pure (.done h)) fun _ => ?_
  · rw [ne_eq, line_move_eq_add]
  rw [kind_move]
  split
  · exact .pure (.done h)
  · exact .pure (.done h)
  · exact .pure (.done h)
  · exact .pure (.done h)
  · exact .pure (.done h)
  · exact .pure (.done h)
  · exact .pure (.done h)
  · exact .pure (.done h)
  · exact (follows_attachDirective hheld false h).bindBy fun _ _ h' => .pure (.yield h')
  · refine (follows_peekKind 1).andThen fun next => ?_
    refine .ite Iff.rfl (fun _ => ?_) fun _ => .pure (.done h)
    exact (follows_property h).bindBy fun _ _ h' => .pure (.yield h')
  · exact (follows_unexpected _).andThen fun _ => (follows_skipHead headLine).andThen fun _ =>
      .pure (.done h)

theorem follows_elementHead (h : Draft bond.shift node node') (headLine : Nat) :
    FollowsDraft bond .within (elementHead held node (headLine + bond.shift.lines))
      (elementHead held' node' headLine) :=
  .iterateBy h fun _ _ h' => follows_headTurn hheld headLine h'

end

theorem follows_skipElement : Follows bond .within .within skipElement skipElement := by
  refine FollowsBy.andThen (follows_skipUntil ?_) fun _ => ?_
  · refine follows_currentKind.andThen fun kind => .get fun state back hdepth _ => .pure ?_
    rw [hdepth]
    rfl
  · refine (follows_check _).andThen fun found => .ite Iff.rfl (fun _ => ?_) fun _ => .pure rfl
    exact follows_skipBalanced.andThen fun _ => .pure rfl

/-! ## Elements -/

theorem follows_templateParams (h : Draft bond.shift node node') :
    FollowsDraft bond .within (templateParams node) (templateParams node') := by
  unfold templateParams
  rw [h.kind_eq]
  cases node'.kind with
  | template params =>
      refine (follows_check _).andThen fun found => .ite Iff.rfl (fun _ => ?_) fun _ => .pure h
      exact follows_paramList.andThen fun params => .pure (h.with_kind (.template params))
  | _ => exact .pure h

theorem follows_elementTemplate (h : Draft bond.shift node node') (headLine : Nat) :
    FollowsDraft bond .within (elementTemplate node (headLine + bond.shift.lines))
      (elementTemplate node' headLine) := by
  refine follows_current.bind fun mark => .ite ?_ (fun _ => ?_) fun _ => .pure h
  · rw [isWord_move, line_move_eq_add]
  · exact follows_advance.andThen fun _ => follows_templateName h

theorem follows_refuseElement (h : Draft bond.shift node node') :
    FollowsDraft bond .within (refuseElement node) (refuseElement node') :=
  follows_skipElement.andThen fun _ => .pure h

/-- A node without contents, which has no place yet. -/
theorem draft_ofKind (kind : NodeKind) :
    Draft shift (.ofKind (move shift kind) default) (.ofKind kind default) :=
  ⟨default, by rw [Node.move_eq]; rfl⟩

theorem draft_fragment : Draft shift (.fragment [] default) (.fragment [] default) :=
  draft_ofKind .fragment

section

variable {held held' : Held} (hheld : held.Follows bond held')
include hheld

theorem follows_elementBody (h : Draft bond.shift node node') :
    FollowsDraft bond .within (elementBody held node) (elementBody held' node') := by
  refine .get fun state back hdepth _ => ?_
  rw [hdepth]
  refine (follows_check _).andThen fun ends => (follows_peekKind 1).andThen fun next => ?_
  refine (follows_check _).andThen fun opens => .ite Iff.rfl (fun _ => ?_) fun _ => ?_
  · exact follows_braced h fun _ _ h' => follows_bodyItem hheld h'
  refine .ite Iff.rfl (fun _ => ?_) fun _ => .pure h
  exact follows_advance.andThen fun _ => follows_advance.andThen fun _ =>
    (follows_use _).andThen fun _ => follows_indentedBody hheld h

theorem follows_elementRest (h : Draft bond.shift node node') (headLine : Nat) :
    FollowsDraft bond .within (elementRest held node (headLine + bond.shift.lines))
      (elementRest held' node' headLine) :=
  (follows_elementName h headLine).bindBy fun _ _ h => (follows_templateParams h).bindBy fun _ _ h =>
    (follows_elementTemplate h headLine).bindBy fun _ _ h =>
      (follows_elementHead hheld h headLine).bindBy fun _ _ h => follows_elementBody hheld h

theorem follows_genericElement (kind : NodeKind) (hkind : move bond.shift kind = kind) :
    Follows bond i .within (genericElement held kind) (genericElement held' kind) := by
  refine follows_current.bind fun keyword => follows_advance.andThen fun _ => ?_
  have h : Draft bond.shift (.ofKind kind default) (.ofKind kind default) := by
    have hmoved : Draft bond.shift (.ofKind (move bond.shift kind) default)
        (.ofKind kind default) := draft_ofKind kind
    rwa [hkind] at hmoved
  exact (follows_deeper (follows_refuseElement h) (follows_elementRest hheld h keyword.line)).bindBy
    fun _ _ h => follows_close h keyword.position

theorem follows_exported : Follows bond i .within (exported held) (exported held') := by
  refine follows_startPosition.bind fun start => follows_advance.andThen fun _ => ?_
  refine (follows_deeper (follows_refuseElement draft_fragment) ?_).bindBy
    fun _ _ h => follows_close h start
  exact (hheld.element _).bind fun node => .pure ((Draft.of_eq rfl).with_exported true)

omit hheld in
theorem follows_function : Follows bond i .within function function := by
  refine follows_startPosition.bind fun start => follows_advance.andThen fun _ => ?_
  refine (follows_use _).andThen fun _ => (follows_expectName _).andThen fun found => ?_
  cases found with
  | none =>
      exact follows_synchronize.andThen fun _ => follows_close (draft_ofKind (.function [] "")) start
  | some name =>
      exact follows_paramList.andThen fun params => follows_blockText.andThen fun body =>
        follows_close ((draft_ofKind (.function params body)).with_name _) start

/-! ## Blocks of logic -/

omit hheld in
theorem follows_logicValue : Follows bond .within .within logicValue logicValue :=
  follows_valueOr follows_synchronize

omit hheld in
theorem move_logicBlock (block : LogicBlock) (key : String) (value : Value) :
    { move shift block with values := (move shift block).values.insert key (move shift value) } =
      move shift { block with values := block.values.insert key value } :=
  congrArg (fun values => ({ block with values := values } : LogicBlock))
    (move_insert shift key value block.values).symm

omit hheld in
theorem follows_logicItem (block : LogicBlock) :
    Follows bond .within .within (logicItem (move bond.shift block)) (logicItem block) := by
  refine follows_current.bind fun token => (follows_peekKind 1).andThen fun next => ?_
  refine .ite Iff.rfl (fun _ => ?_) fun _ => .ite Iff.rfl (fun _ => ?_) fun _ => ?_
  · refine follows_advance.andThen fun _ => (follows_expectName _).andThen fun found => ?_
    cases found with
    | none => exact follows_synchronize.andThen fun _ => .pure rfl
    | some name =>
        exact follows_paramList.andThen fun _ => follows_blockText.andThen fun _ => .pure rfl
  · refine follows_advance.andThen fun _ => (follows_expectName _).andThen fun found => ?_
    cases found with
    | none => exact follows_synchronize.andThen fun _ => .pure rfl
    | some name =>
        refine follows_currentKind.andThen fun kind => .ite Iff.rfl (fun _ => ?_) fun _ => ?_
        · exact follows_advance.andThen fun _ => follows_logicValue.bind fun value =>
            .pure (move_logicBlock block name value)
        · exact (follows_unexpected _).andThen fun _ => follows_logicValue.bind fun value =>
            .pure (move_logicBlock block name value)
  refine .ite Iff.rfl (fun _ => ?_) fun _ => .ite Iff.rfl (fun _ => ?_) fun _ => ?_
  · exact follows_advance.andThen fun _ => follows_advance.andThen fun _ =>
      follows_logicValue.bind fun value => .pure (move_logicBlock block token.text value)
  · refine follows_advance.andThen fun _ => follows_paramList.andThen fun params => ?_
    refine follows_blockText.andThen fun body => ?_
    exact .ite Iff.rfl (fun _ => .pure rfl) fun _ => .pure rfl
  · exact (follows_unexpected _).andThen fun _ => follows_synchronize.andThen fun _ => .pure rfl

theorem follows_logicTurn {found found' : Node × LogicBlock}
    (h : DraftWith (fun block block' => block = move bond.shift block') bond.shift found found') :
    FollowsBy bond .within .within
      (DraftWith (fun block block' => block = move bond.shift block') bond.shift)
      (logicTurn held found) (logicTurn held' found') := by
  obtain ⟨node, block⟩ := found
  obtain ⟨node', block'⟩ := found'
  obtain ⟨hnode, hblock⟩ := h
  cases hblock
  refine follows_currentKind.andThen fun kind => ?_
  split
  · exact (follows_logicItem block').bind fun block => .pure ⟨hnode, rfl⟩
  · exact (follows_attachDirective hheld true hnode).bindBy fun _ _ h' => .pure ⟨h', rfl⟩
  · exact (follows_unexpected _).andThen fun _ => follows_synchronize.andThen fun _ =>
      .pure ⟨hnode, rfl⟩

theorem follows_logicRest (h : Draft bond.shift node node') (headLine : Nat) :
    FollowsDraft bond .within (logicRest held node (headLine + bond.shift.lines))
      (logicRest held' node' headLine) := by
  refine (follows_elementName h headLine).bindBy fun node node' h => ?_
  refine (follows_check _).andThen fun found => .ite Iff.rfl (fun _ => ?_) fun _ => ?_
  · refine FollowsBy.bindBy
      (follows_braced ⟨h, rfl⟩ fun _ _ h' => follows_logicTurn hheld h') ?_
    rintro ⟨node, block⟩ ⟨node', block'⟩ ⟨hnode, hblock⟩
    cases hblock
    exact .pure (hnode.with_kind (.logic block'))
  · exact (follows_unexpected _).andThen fun _ => follows_synchronize.andThen fun _ =>
      .pure (h.with_kind (.logic .empty))

theorem follows_logicElement : Follows bond i .within (logicElement held) (logicElement held') := by
  refine follows_current.bind fun keyword => follows_advance.andThen fun _ => ?_
  refine (follows_use _).andThen fun _ => ?_
  have h : Draft bond.shift (.ofKind (.logic .empty) default) (.ofKind (.logic .empty) default) :=
    draft_ofKind (.logic .empty)
  exact (follows_deeper (follows_refuseElement h) (follows_logicRest hheld h keyword.line)).bindBy
    fun _ _ h => follows_close h keyword.position

end

end Parser
end SceneLang
