import SceneLang.Proofs.Shift.Elements

/-!
# State machines and directives further down

The parsers of state machines, and the choice among the parsers of elements, come to the same
results further down in a text.  A directive further down is read to the same directive further
down, and so is what it holds, by the parsers of each level.  With more levels left the same is
read.
-/

namespace SceneLang

open Movable (move)
open Fixed (move_eq)

namespace Parser

variable {bond : Bond} {i : Stage} {shift : Shift}

/-! ## States and transitions -/

theorem move_machineState (state : MachineState) (key : String) (value : Value) :
    { move shift state with
        properties := (move shift state).properties.insert key (move shift value) } =
      move shift { state with properties := state.properties.insert key value } :=
  congrArg (fun properties => ({ state with properties := properties } : MachineState))
    (move_insert shift key value state.properties).symm

theorem follows_stateItem (state : MachineState) :
    Follows bond .within .within (stateItem (move bond.shift state)) (stateItem state) := by
  refine follows_current.bind fun token => (follows_peekKind 1).andThen fun next => ?_
  refine .ite Iff.rfl (fun _ => ?_) fun _ => .ite Iff.rfl (fun _ => ?_) fun _ =>
    .ite Iff.rfl (fun _ => ?_) fun _ => ?_
  · exact follows_advance.andThen fun _ => follows_captureBlock.andThen fun _ => .pure rfl
  · exact follows_advance.andThen fun _ => follows_captureBlock.andThen fun _ => .pure rfl
  · exact follows_advance.andThen fun _ => follows_advance.andThen fun _ =>
      follows_logicValue.bind fun value => .pure (move_machineState state token.text value)
  · exact (follows_unexpected _).andThen fun _ => follows_synchronize.andThen fun _ => .pure rfl

theorem follows_machineState : Follows bond .within .within machineState machineState := by
  refine (follows_expectName _).andThen fun found => ?_
  cases found with
  | none => exact .pure rfl
  | some name =>
      refine (follows_check _).andThen fun found => .ite Iff.rfl (fun _ => ?_) fun _ => .pure rfl
      refine FollowsBy.bindBy (follows_braced (R := fun state state' => state = move bond.shift state')
        rfl ?_) ?_
      · rintro _ state rfl
        exact follows_stateItem state
      · rintro _ state rfl
        exact .pure rfl

theorem follows_transition : Follows bond .within .within transition transition := by
  refine (follows_expectName _).andThen fun found => ?_
  cases found with
  | none => exact .pure rfl
  | some source =>
      refine (follows_eat _).andThen fun arrow => .ite Iff.rfl (fun _ => ?_) fun _ => ?_
      · refine (follows_expectName _).andThen fun found => ?_
        cases found with
        | none => exact follows_synchronize.andThen fun _ => .pure rfl
        | some target =>
            refine (follows_eat _).andThen fun colon => .ite Iff.rfl (fun _ => ?_) fun _ => ?_
            · exact (follows_expectName _).andThen fun _ => .pure rfl
            · exact .pure rfl
      · exact (follows_unexpected _).andThen fun _ => follows_synchronize.andThen fun _ => .pure rfl

theorem follows_addTransition (machine : StateMachine) :
    Follows bond .within .within (addTransition (move bond.shift machine))
      (addTransition machine) := by
  refine follows_transition.andThen fun found => ?_
  cases found <;> exact .pure rfl

theorem follows_initialName (machine : StateMachine) (keyword : Token) :
    Follows bond .within .within
      (initialName (move bond.shift machine) (move bond.shift keyword))
      (initialName machine keyword) := by
  refine (follows_expectName _).andThen fun found => ?_
  cases found with
  | none => exact follows_synchronize.andThen fun _ => .pure rfl
  | some name =>
      refine .ite Iff.rfl (fun _ => ?_) fun _ => .pure rfl
      exact (follows_report_of rfl).andThen fun _ => .pure rfl

theorem follows_initialState (machine : StateMachine) :
    Follows bond .within .within (initialState (move bond.shift machine))
      (initialState machine) := by
  refine follows_current.bind fun keyword => follows_advance.andThen fun _ => ?_
  refine follows_currentKind.andThen fun kind => .ite Iff.rfl (fun _ => ?_) fun _ => ?_
  · exact follows_advance.andThen fun _ => follows_initialName machine keyword
  · exact (follows_report_of rfl).andThen fun _ => follows_initialName machine keyword

theorem follows_transitionItem (machine : StateMachine) :
    Follows bond .within .within (transitionItem (move bond.shift machine))
      (transitionItem machine) := by
  refine follows_currentKind.andThen fun kind => .ite Iff.rfl (fun _ => ?_) fun _ => ?_
  · exact follows_addTransition machine
  · exact (follows_unexpected _).andThen fun _ => follows_synchronize.andThen fun _ => .pure rfl

/-! ## Bodies of state machines -/

/-- A node in the making beside a state machine in the making. -/
abbrev DraftMachine (shift : Shift) (found found' : Node × StateMachine) : Prop :=
  DraftWith (fun machine machine' => machine = move shift machine') shift found found'

section

variable {held held' : Held} (hheld : held.Follows bond held') {node node' : Node}
include hheld

theorem follows_machineItem {found found' : Node × StateMachine}
    (h : DraftMachine bond.shift found found') :
    FollowsBy bond .within .within (DraftMachine bond.shift) (machineItem held found)
      (machineItem held' found') := by
  obtain ⟨node, machine⟩ := found
  obtain ⟨node', machine'⟩ := found'
  obtain ⟨hnode, hmachine⟩ := h
  cases hmachine
  refine follows_current.bind fun token => (follows_peekKind 1).andThen fun next => ?_
  refine .ite Iff.rfl (fun _ => ?_) fun _ => .ite Iff.rfl (fun _ => ?_) fun _ =>
    .ite Iff.rfl (fun _ => ?_) fun _ => .ite Iff.rfl (fun _ => ?_) fun _ =>
    .ite Iff.rfl (fun _ => ?_) fun _ => .ite Iff.rfl (fun _ => ?_) fun _ => ?_
  · exact (follows_attachDirective hheld true hnode).bindBy fun _ _ h' => .pure ⟨h', rfl⟩
  · exact (follows_initialState machine').bind fun _ => .pure ⟨hnode, rfl⟩
  · refine follows_advance.andThen fun _ => follows_machineState.bind fun found => ?_
    cases found with
    | none => exact .pure ⟨hnode, rfl⟩
    | some state =>
        refine .pure ⟨hnode, ?_⟩
        exact congrArg (fun states => ({ machine' with states := states } : StateMachine))
          (move_append bond.shift machine'.states [state]).symm
  · refine follows_advance.andThen fun _ => FollowsBy.bindBy
      (follows_braced (R := fun machine machine' => machine = move bond.shift machine') rfl ?_) ?_
    · rintro _ machine rfl
      exact follows_transitionItem machine
    · rintro _ machine rfl
      exact .pure ⟨hnode, rfl⟩
  · exact (follows_addTransition machine').bind fun _ => .pure ⟨hnode, rfl⟩
  · exact (follows_property hnode).bindBy fun _ _ h' => .pure ⟨h', rfl⟩
  · exact (follows_unexpected _).andThen fun _ => follows_synchronize.andThen fun _ =>
      .pure ⟨hnode, rfl⟩

theorem follows_machineBody (h : Draft bond.shift node node') :
    FollowsBy bond .within .within (DraftMachine bond.shift) (machineBody held node)
      (machineBody held' node') := by
  refine (follows_check _).andThen fun found => .ite Iff.rfl (fun _ => ?_) fun _ => ?_
  · exact follows_braced ⟨h, rfl⟩ fun _ _ h' => follows_machineItem hheld h'
  · exact (follows_unexpected _).andThen fun _ => follows_synchronize.andThen fun _ =>
      .pure ⟨h, rfl⟩

theorem follows_machineRest (h : Draft bond.shift node node') (keyword : Token) :
    FollowsDraft bond .within (machineRest held node (move bond.shift keyword))
      (machineRest held' node' keyword) := by
  refine (follows_elementName h keyword.line).bindBy fun node node' h => ?_
  refine (follows_machineBody hheld h).bindBy ?_
  rintro ⟨node, machine⟩ ⟨node', machine'⟩ ⟨hnode, hmachine⟩
  cases hmachine
  refine .ite Iff.rfl (fun _ => ?_) fun _ => .pure (hnode.with_kind (.stateMachine machine'))
  refine FollowsBy.andThen (follows_report_of ?_) fun _ =>
    .pure (hnode.with_kind (.stateMachine machine'))
  rw [hnode.name_eq]
  rfl

theorem follows_stateMachine :
    Follows bond i .within (stateMachine held) (stateMachine held') := by
  refine follows_current.bind fun keyword => follows_advance.andThen fun _ => ?_
  refine (follows_use _).andThen fun _ => ?_
  have h : Draft bond.shift (.ofKind (.stateMachine .empty) default)
      (.ofKind (.stateMachine .empty) default) :=
    draft_ofKind (.stateMachine .empty)
  exact (follows_deeper (follows_refuseElement h) (follows_machineRest hheld h keyword)).bindBy
    fun _ _ h => follows_close h keyword.position

/-! ## Elements -/

omit hheld in
theorem follows_checkKeyword (keyword : Token) :
    Follows bond i i (checkKeyword (move bond.shift keyword)) (checkKeyword keyword) := by
  refine .ite Iff.rfl (fun _ => .pure rfl) fun _ => .read fun context context' hoptions _ => ?_
  rw [hoptions.strict]
  refine follows_report_of ?_
  rw [Diagnostic.unknownKeyword, Diagnostic.unknownKeyword, Diagnostic.move_withCandidates]
  rfl

theorem follows_elementWith : Follows bond i .within (elementWith held) (elementWith held') := by
  refine follows_current.bind fun token => (follows_peekKind 1).andThen fun next => ?_
  refine .ite Iff.rfl (fun _ => follows_exported hheld) fun _ =>
    .ite Iff.rfl (fun _ => follows_function) fun _ =>
    .ite Iff.rfl (fun _ => follows_logicElement hheld) fun _ =>
    .ite Iff.rfl (fun _ => follows_stateMachine hheld) fun _ =>
    .ite Iff.rfl (fun _ => ?_) fun _ => .ite Iff.rfl (fun _ => ?_) fun _ =>
    .ite Iff.rfl (fun _ => ?_) fun _ => ?_
  · exact (follows_use _).andThen fun _ => follows_genericElement hheld _ rfl
  · exact (follows_use _).andThen fun _ => follows_genericElement hheld _ rfl
  · exact follows_genericElement hheld _ rfl
  · exact (follows_checkKeyword token).andThen fun _ => follows_genericElement hheld _ rfl

end

end Parser

variable {shift : Shift}

/-! ## The size of a tree -/

mutual

theorem Node.count_moved (shift : Shift) (node : Node) : (node.moved shift).count = node.count := by
  obtain ⟨kind, name, id, children, properties, spreads, directives, traits, exported, loc⟩ := node
  simp only [Node.moved, Node.count, Directive.countAll_moved shift directives,
    Node.countAll_moved shift children]

theorem Node.countAll_moved (shift : Shift) (nodes : List Node) :
    Node.countAll (Node.movedAll shift nodes) = Node.countAll nodes := by
  match nodes with
  | [] => rfl
  | node :: rest =>
      simp only [Node.movedAll, Node.countAll, Node.count_moved shift node,
        Node.countAll_moved shift rest]

theorem Directive.count_moved (shift : Shift) (directive : Directive) :
    (directive.moved shift).count = directive.count := by
  match directive with
  | .loop _ _ _ body => exact Node.countAll_moved shift body
  | .whileLoop _ body => exact Node.countAll_moved shift body
  | .conditional _ body none => exact Node.countAll_moved shift body
  | .conditional _ body (some elseBody) =>
      simp only [Directive.moved, Directive.count, Node.countAll_moved shift body,
        Node.countAll_moved shift elseBody]
  | .trait _ _ | .generic _ _ | .lifecycle _ _ _ | .state _ | .bindings _ | .imports _
  | .setting _ _ | .topic _ _ _ => rfl

theorem Directive.countAll_moved (shift : Shift) (directives : List Directive) :
    Directive.countAll (Directive.movedAll shift directives) = Directive.countAll directives := by
  match directives with
  | [] => rfl
  | directive :: rest =>
      simp only [Directive.movedAll, Directive.countAll, Directive.count_moved shift directive,
        Directive.countAll_moved shift rest]

end

theorem Draft.count_eq {node other : Node} (h : Draft shift node other) :
    node.count = other.count := by
  obtain ⟨loc, rfl⟩ := h
  obtain ⟨kind, name, id, children, properties, spreads, directives, traits, exported, place⟩ :=
    other
  exact Node.count_moved shift
    ⟨kind, name, id, children, properties, spreads, directives, traits, exported, place⟩

namespace Parser

variable {bond : Bond} {i : Stage}

/-! ## Conditions and bodies -/

theorem follows_skipCondition :
    Follows bond .within .within skipCondition skipCondition :=
  follows_skipUntil (follows_currentKind.andThen fun _ => .pure rfl)

theorem follows_conditionText :
    Follows bond .within .within conditionText conditionText := by
  refine follows_current.bind fun token => (follows_valueOr follows_skipCondition).bind fun _ => ?_
  refine (follows_setValueFailed false).andThen fun _ => follows_previousSpan.bind fun span => ?_
  exact (follows_sliceBetween token.span.start span.stop).andThen fun _ => .pure rfl

theorem follows_loopVariable : Follows bond .within .within loopVariable loopVariable := by
  refine follows_current.bind fun token => .ite Iff.rfl (fun _ => ?_) fun _ => ?_
  · exact follows_advance.andThen fun _ => .pure rfl
  · exact (follows_unexpected _).andThen fun _ => .pure rfl

theorem isEmpty_move {α : Type} [Movable α] (list : List α) :
    (move shift list).isEmpty = list.isEmpty :=
  List.isEmpty_map

section

variable {held held' : Held} (hheld : held.Follows bond held')
include hheld

theorem follows_controlItem (nodes : List Node) :
    Follows bond .within .within (controlItem held (move bond.shift nodes))
      (controlItem held' nodes) := by
  refine follows_startPosition.bind fun start => ?_
  refine (follows_bodyItem hheld draft_fragment).bindBy fun item item' h => ?_
  have hkept : Follows bond .within .within
      (do
        if 1 < item.count || !(item.properties.isEmpty && item.spreads.isEmpty &&
            item.traits.isEmpty) then
          return (← close item (move bond.shift start)) :: move bond.shift nodes
        else return move bond.shift nodes)
      (do
        if 1 < item'.count || !(item'.properties.isEmpty && item'.spreads.isEmpty &&
            item'.traits.isEmpty) then
          return (← close item' start) :: nodes
        else return nodes) := by
    rw [h.count_eq, h.properties_eq, h.spreads_eq, h.traits_eq]
    simp only [isEmpty_move]
    refine .ite Iff.rfl (fun _ => ?_) fun _ => .pure rfl
    exact (follows_close h start).bind fun node => .pure rfl
  revert hkept
  rw [h.children_eq, h.directives_eq, h.properties_eq, h.spreads_eq, h.traits_eq]
  simp only [isEmpty_move]
  intro hkept
  match item'.children with
  | [] => exact hkept
  | [child] =>
      cases item'.properties.isEmpty && item'.spreads.isEmpty && item'.traits.isEmpty &&
          item'.directives.isEmpty with
      | true => exact .pure rfl
      | false => exact hkept
  | first :: second :: rest => exact hkept

theorem follows_controlBody :
    Follows bond .within .within (controlBody held) (controlBody held') := by
  refine FollowsBy.bindBy
    (follows_braced (R := fun nodes nodes' => nodes = move bond.shift nodes') rfl ?_) ?_
  · rintro _ nodes rfl
    exact follows_controlItem hheld nodes
  · rintro _ nodes rfl
    exact .pure (move_reverse bond.shift nodes).symm

/-! ## Control flow -/

theorem follows_loop (form : LoopForm) :
    Follows bond .within .within (loop held form) (loop held' form) := by
  refine (follows_use _).andThen fun _ => follows_loopVariable.andThen fun item => ?_
  refine follows_current.bind fun token => ?_
  have hrest : Follows bond .within .within
      (do
        let iterable ← conditionText
        return Directive.loop form item iterable (← controlBody held))
      (do
        let iterable ← conditionText
        return Directive.loop form item iterable (← controlBody held')) :=
    follows_conditionText.andThen fun iterable => (follows_controlBody hheld).bind fun body =>
      .pure (congrArg (Directive.loop form item iterable) (Node.movedAll_eq _ body).symm)
  refine .ite Iff.rfl (fun _ => ?_) fun _ => ?_
  · exact follows_advance.andThen fun _ => hrest
  · exact (follows_unexpected _).andThen fun _ => hrest

omit hheld in
theorem dropWhile_move (kind : TokenKind) (tokens : List Token) :
    (move shift tokens).dropWhile (fun token => token.kind = kind) =
      move shift (tokens.dropWhile fun token => token.kind = kind) :=
  List.dropWhile_map

omit hheld in
theorem follows_elseAhead : Follows bond i i elseAhead elseAhead := by
  intro context other state back halike post hpost
  rw [elseAhead, returns_bind, returns_get] at hpost ⊢
  have hbreaks : state.behindBreaks = move bond.shift back.behindBreaks := by
    rw [State.behindBreaks, halike.visibleFrom]
    exact dropWhile_move .newline (back.visibleFrom 0)
  rw [hbreaks]
  cases hmarks : back.behindBreaks with
  | nil =>
      rw [hmarks] at hpost
      exact FollowsBy.throw _ _ halike hpost
  | cons mark rest =>
      have hmoved : move bond.shift (mark :: rest) =
          move bond.shift mark :: move bond.shift rest := rfl
      have hwords : visible back.braceDepth (move bond.shift (behind (mark :: rest))) =
          move bond.shift (visible back.braceDepth (behind (mark :: rest))) := visible_move _ _
      rw [← behind_move, hmoved, ← halike.braceDepth] at hwords
      rw [hmarks] at hpost
      rw [hmoved]
      dsimp only at hpost ⊢
      rw [hwords]
      rw [← halike.braceDepth] at hpost
      cases hword : visible state.braceDepth (behind (mark :: rest)) with
      | nil =>
          rw [hword] at hpost
          exact FollowsBy.throw _ _ halike hpost
      | cons word others =>
          rw [hword] at hpost
          exact FollowsBy.pure rfl halike hpost

omit hheld in
theorem follows_skipNewlines :
    Follows bond .within .within skipNewlines skipNewlines :=
  follows_skipUntil ((follows_check _).andThen fun _ => .pure rfl)

theorem follows_elseBranch (start : Position) :
    Follows bond .within .within (elseBranch held (move bond.shift start))
      (elseBranch held' start) := by
  refine follows_current.bind fun token => (follows_peek 1).bind fun next => ?_
  refine .ite Iff.rfl (fun _ => ?_) fun _ => .ite Iff.rfl (fun _ => ?_) fun _ =>
    follows_controlBody hheld
  · refine (follows_attachDirective hheld true draft_fragment).bindBy fun holder holder' h => ?_
    exact (follows_close h start).bind fun _ => .pure rfl
  · exact follows_advance.andThen fun _ => hheld.conditional.bind fun directive =>
      (follows_close (draft_fragment.attach directive) start).bind fun _ => .pure rfl

theorem follows_conditionalWith :
    Follows bond .within .within (conditionalWith held) (conditionalWith held') := by
  refine (follows_use _).andThen fun _ => follows_conditionText.andThen fun condition => ?_
  refine (follows_controlBody hheld).bind fun body => follows_elseAhead.andThen fun found => ?_
  refine .ite Iff.rfl (fun _ => ?_) fun _ => .pure ?_
  · refine follows_skipNewlines.andThen fun _ => follows_startPosition.bind fun start => ?_
    refine follows_advance.andThen fun _ => follows_advance.andThen fun _ => ?_
    refine (follows_elseBranch hheld start).bind fun branch => .pure ?_
    change _ = Directive.conditional _ (Node.movedAll _ _) (some (Node.movedAll _ _))
    rw [Node.movedAll_eq, Node.movedAll_eq]
  · exact congrArg (Directive.conditional condition · none) (Node.movedAll_eq _ body).symm

end

/-! ## Imports -/

theorem follows_importSource : Follows bond .within .within importSource importSource := by
  refine follows_current.bind fun token => .ite Iff.rfl (fun _ => ?_) fun _ => ?_
  · refine follows_advance.andThen fun _ => follows_current.bind fun path => ?_
    refine .ite Iff.rfl (fun _ => ?_) fun _ => ?_
    · exact follows_advance.andThen fun _ => .pure rfl
    · exact (follows_unexpected _).andThen fun _ => .pure rfl
  · exact (follows_unexpected _).andThen fun _ => .pure rfl

theorem follows_importAlias : Follows bond .within .within importAlias importAlias := by
  refine follows_current.bind fun token => .ite Iff.rfl (fun _ => ?_) fun _ => .pure rfl
  exact follows_advance.andThen fun _ => follows_expectName _

theorem follows_importName (names : List ImportName) :
    Follows bond .within .within (importName names) (importName names) := by
  refine follows_current.bind fun token => .ite Iff.rfl (fun _ => ?_) fun _ => ?_
  · exact follows_advance.andThen fun _ => follows_importAlias.andThen fun _ =>
      .pure (move_eq _ _).symm
  · exact (follows_unexpected _).andThen fun _ => follows_advance.andThen fun _ =>
      .pure (move_eq _ _).symm

theorem follows_importDecl : Follows bond .within .within importDecl importDecl := by
  refine (follows_use _).andThen fun _ => follows_current.bind fun token => ?_
  rw [kind_move]
  split
  · exact follows_advance.andThen fun _ => follows_importAlias.andThen fun _ => .pure rfl
  · refine FollowsBy.bindBy (follows_braced (R := Eq) rfl ?_) ?_
    · intro names _ hnames
      cases hnames
      intro context other state back halike post hpost
      apply (follows_importName names halike hpost).mono
      rintro _ next ⟨names', next', hnext, rfl, halike'⟩
      exact ⟨names', next', hnext, move_eq _ _, halike'⟩
    · intro names _ hnames
      cases hnames
      refine follows_importSource.andThen fun path => .pure ?_
      cases path <;> rfl
  · refine follows_advance.andThen fun _ => follows_importSource.andThen fun path => .pure ?_
    cases path <;> rfl
  · exact (follows_unexpected _).andThen fun _ => .pure rfl

theorem follows_importDirective :
    Follows bond .within .within importDirective importDirective := by
  refine follows_importDecl.andThen fun found => ?_
  cases found with
  | none => exact .pure rfl
  | some decl =>
      refine FollowsBy.andThen (α := Unit) ?_ fun _ => .pure rfl
      intro context other state back halike post hpost
      rw [returns_modify] at hpost ⊢
      exact ⟨(), _, hpost, rfl, { halike with notes := bond.imports decl halike.notes }⟩

/-! ## Directives -/

theorem follows_reportUnknown (name : Token) :
    Follows bond i i (reportUnknown (move bond.shift name)) (reportUnknown name) := by
  refine .read fun context context' hoptions _ => ?_
  dsimp only
  rw [hoptions.strict]
  have htrait (strict : Bool) : Diagnostic.unknownTrait strict name.text
      (move bond.shift name.span) (move bond.shift name.position) =
        move bond.shift (Diagnostic.unknownTrait strict name.text name.span name.position) := by
    rw [Diagnostic.unknownTrait, Diagnostic.unknownTrait, Diagnostic.move_withCandidates]
    rfl
  have hdirective (strict : Bool) : Diagnostic.unknownDirective strict name.text
      (move bond.shift name.span) (move bond.shift name.position) =
        move bond.shift (Diagnostic.unknownDirective strict name.text name.span name.position) := by
    rw [Diagnostic.unknownDirective, Diagnostic.unknownDirective, Diagnostic.move_withCandidates]
    rfl
  rw [text_move, span_move, position_move, htrait, hdirective, ← apply_ite (move bond.shift)]
  exact .ite Iff.rfl (fun _ => follows_report_of rfl) fun _ =>
    .ite Iff.rfl (fun _ => follows_report_of rfl) fun _ => follows_report_of rfl

theorem follows_traitDirective (name : Token) (allowBody : Bool) :
    Follows bond .within .within (traitDirective (move bond.shift name) allowBody)
      (traitDirective name allowBody) := by
  refine .read fun context context' hoptions _ => ?_
  dsimp only
  rw [hoptions.traits, hoptions.strict]
  refine (follows_directiveConfig allowBody).bind fun config => ?_
  refine .ite Iff.rfl (fun _ => ?_) fun _ => ?_
  · exact (follows_use _).andThen fun _ => .pure rfl
  · refine (follows_reportUnknown name).andThen fun _ => .pure ?_
    cases context'.options.strict <;> rfl

/-- The subject of a configuration is a text, which stands still. -/
theorem subject_move (config : TraitConfig) : (move shift config).subject? = config.subject? := by
  obtain ⟨args, table⟩ := config
  match args with
  | [] => rfl
  | value :: rest => cases value <;> rfl

theorem follows_lifecycle (hook : String) :
    Follows bond .within .within (lifecycle hook) (lifecycle hook) := by
  refine follows_paramList.andThen fun params => (follows_check _).andThen fun found => ?_
  refine .ite Iff.rfl (fun _ => ?_) fun _ => .pure rfl
  exact follows_blockText.andThen fun _ => .pure rfl

section

variable {held held' : Held} (hheld : held.Follows bond held')
include hheld

theorem follows_directiveNamed (name : Token) (span : Span) (position : Position)
    (allowBody : Bool) :
    Follows bond .within .within
      (directiveNamed held (move bond.shift name) (move bond.shift span)
        (move bond.shift position) allowBody)
      (directiveNamed held' name span position allowBody) := by
  refine .ite Iff.rfl (fun _ => ?_) fun _ => .ite Iff.rfl (fun _ => ?_) fun _ =>
    .ite Iff.rfl (fun _ => ?_) fun _ => .ite Iff.rfl (fun _ => ?_) fun _ =>
    .ite Iff.rfl (fun _ => ?_) fun _ => .read fun context context' hoptions _ => ?_
  · exact (follows_loop hheld .plain).bind fun _ => .pure rfl
  · exact (follows_loop hheld .each).bind fun _ => .pure rfl
  · refine (follows_use _).andThen fun _ => follows_conditionText.andThen fun condition => ?_
    refine (follows_controlBody hheld).bind fun body => .pure ?_
    exact congrArg (some ∘ Directive.whileLoop condition) (Node.movedAll_eq _ body).symm
  · exact (follows_conditionalWith hheld).bind fun _ => .pure rfl
  · refine FollowsBy.andThen (follows_report_of rfl) fun _ => (follows_check _).andThen fun found => ?_
    refine .ite Iff.rfl (fun _ => ?_) fun _ => .pure rfl
    exact follows_skipBalanced.andThen fun _ => .pure rfl
  rw [hoptions.imports]
  refine .ite Iff.rfl (fun _ => follows_importDirective) fun _ =>
    .ite Iff.rfl (fun _ => ?_) fun _ => .ite Iff.rfl (fun _ => ?_) fun _ => ?_
  · exact (follows_directiveConfig true).bind fun _ => .pure rfl
  · exact (follows_directiveConfig true).bind fun _ => .pure rfl
  rw [text_move]
  split
  · exact (follows_directiveConfig allowBody).bind fun _ => .pure rfl
  split
  · rename_i which _
    refine (follows_directiveConfig allowBody).bind fun config => .pure ?_
    rw [subject_move]
    rfl
  refine .ite Iff.rfl (fun _ => ?_) fun _ => follows_traitDirective name allowBody
  exact (follows_lifecycle _).bind fun _ => .pure rfl

omit hheld in
theorem move_merge (a b : Span) : (move shift a).merge (move shift b) = move shift (a.merge b) :=
  (Span.mk.injEq _ _ _ _).mpr
    ⟨Nat.add_min_add_right a.start b.start shift.bytes,
      Nat.add_max_add_right a.stop b.stop shift.bytes⟩

theorem follows_directiveWith (allowBody : Bool) :
    Follows bond i .within (directiveWith held allowBody) (directiveWith held' allowBody) := by
  refine follows_current.bind fun mark => follows_advance.andThen fun _ => ?_
  refine follows_current.bind fun name => .ite Iff.rfl (fun _ => ?_) fun _ => ?_
  · refine follows_advance.andThen fun _ => ?_
    dsimp only
    rw [span_move, span_move, move_merge]
    refine (follows_directiveNamed hheld name (mark.span.merge name.span) mark.position
      allowBody).bind fun found => .pure ?_
    cases found <;> rfl
  · exact (follows_unexpected _).andThen fun _ => .pure rfl

end

/-- What a level reads, a level with more levels below reads too. -/
theorem follows_level (more levels : Nat) :
    (level (levels + more)).Follows bond (level levels) := by
  induction levels with
  | zero => exact ⟨fun _ => .throw _ _, fun _ _ => .throw _ _, .throw _ _⟩
  | succ levels ih =>
      rw [Nat.add_right_comm]
      exact ⟨fun _ => follows_elementWith ih, fun _ => follows_directiveWith ih,
        follows_conditionalWith ih⟩

end Parser

end SceneLang
