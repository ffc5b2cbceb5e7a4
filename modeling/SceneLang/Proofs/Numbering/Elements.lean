import SceneLang.Proofs.Numbering.Values
import SceneLang.Proofs.Parser.Logic

/-!
# Interpolations in elements

An element is built item by item: each item puts into the node what it has read, and the rest of the
node stays as it was.  While a block of logic or a state machine is read, it is carried beside the
node that it will be the kind of.  An item of it leaves one of the two as it is.
-/

namespace SceneLang

open Value (interpolations)

namespace Node

variable {node value : Node}

/-- The parts of a node in which there are interpolations. -/
def contents (node : Node) : List Interpolation × Table Value × List Value × List Directive ×
    Table TraitConfig × List Node :=
  (node.kind.interpolations, node.properties, node.spreads, node.directives, node.traits,
    node.children)

theorem interpolations_congr (h : value.contents = node.contents) :
    value.interpolations = node.interpolations := by
  simp only [contents, Prod.mk.injEq] at h
  obtain ⟨hkind, hproperties, hspreads, hdirectives, htraits, hchildren⟩ := h
  rw [interpolations_eq, interpolations_eq, hkind, hproperties, hspreads, hdirectives, htraits,
    hchildren]

theorem count_interpolations (node : Node) (one : Interpolation) :
    node.interpolations.count one = node.kind.interpolations.count one +
      (node.properties.gather Value.interpolations).count one +
      (node.spreads.flatMap Value.interpolations).count one +
      (node.directives.flatMap Directive.interpolations).count one +
      (node.traits.gather TraitConfig.interpolations).count one +
      (node.children.flatMap Node.interpolations).count one := by
  rw [interpolations_eq]
  simp only [List.count_append]

theorem interpolations_ofKind (kind : NodeKind) (loc : Location) :
    (ofKind kind loc).interpolations = kind.interpolations := by
  rw [interpolations_eq]
  simp [ofKind, Table.gather]

theorem interpolations_fragment (loc : Location) : (fragment [] loc).interpolations = [] :=
  interpolations_ofKind .fragment loc

theorem count_attach_le (node : Node) (directive : Directive) (one : Interpolation) :
    (node.attach directive).interpolations.count one ≤
      node.interpolations.count one + directive.interpolations.count one := by
  have htrait (name : String) (config : TraitConfig) :
      ({ node with traits := node.traits.insert name config }).interpolations.count one ≤
        node.interpolations.count one + config.interpolations.count one := by
    have hinsert := Table.count_gather_insert TraitConfig.interpolations name config node.traits one
    rw [count_interpolations, count_interpolations node]
    dsimp only
    omega
  have hother : ({ node with directives := node.directives ++ [directive] }).interpolations.count
      one ≤ node.interpolations.count one + directive.interpolations.count one := by
    rw [count_interpolations, count_interpolations node]
    dsimp only
    rw [List.flatMap_append, List.flatMap_singleton, List.count_append]
    omega
  cases directive with
  | trait name config | generic name config => exact htrait name config
  | lifecycle | state | bindings | loop | whileLoop | conditional | imports | setting | topic =>
      exact hother

end Node

def PlacedDirective.interpolations (placed : PlacedDirective) : List Interpolation :=
  placed.directive.interpolations

/-- The parts of what is found, if anything is. -/
def optionParts {α : Type} (parts : α → List Interpolation) (found : Option α) :
    List Interpolation :=
  found.toList.flatMap parts

theorem optionParts_some {α : Type} (parts : α → List Interpolation) (found : α) :
    optionParts parts (some found) = parts found :=
  List.flatMap_singleton parts found

namespace Parser

/-! ## Properties and directives -/

namespace Builds

variable {α : Type} {p : Parser α} {given : List Interpolation} {parts : α → List Interpolation}

/-- What changes in a node is nothing in which there are interpolations. -/
theorem same {node value : Node} (h : value.contents = node.contents) :
    Builds node.interpolations (Pure.pure value) Node.interpolations :=
  .give (Node.interpolations_congr h)

/-- What does not belong here is skipped. -/
theorem skipped {message : String} {value : α} (h : parts value = given) :
    Builds given (do
      unexpected message
      synchronize
      return value) parts :=
  .before (resting_unexpected message).steady fun _ => .before steady_synchronize fun _ => .give h

/-- What is not touched meanwhile stays in front. -/
theorem behind (h : Builds given p parts) (kept : List Interpolation) :
    Builds (kept ++ given) p fun value => kept ++ parts value where
  makes hpast := by
    rw [← List.append_assoc] at hpast
    refine (h.makes hpast).mono fun value now _ hvalue => ?_
    rwa [List.append_assoc] at hvalue

/-- What is not touched meanwhile stays behind. -/
theorem ahead (h : Builds given p parts) (kept : List Interpolation) :
    Builds (given ++ kept) p fun value => parts value ++ kept :=
  ((h.behind kept).of_count_le fun one => Nat.le_of_eq (List.perm_append_comm.count_eq one)).mono
    fun _ one => Nat.le_of_eq (List.perm_append_comm.count_eq one)

end Builds

theorem builds_close (node : Node) (start : Position) :
    Builds node.interpolations (close node start) Node.interpolations :=
  .before (resting_locationFrom start).steady fun _ => .same rfl

theorem builds_property (node : Node) :
    Builds node.interpolations (property node) Node.interpolations := by
  refine .before resting_current.steady fun key => ?_
  have hrest : Builds node.interpolations (do
      let place ← current
      let read ← valueOr synchronize
      checkProperty key read place
      return { node with properties := node.properties.insert key.text read })
      Node.interpolations := by
    refine .before resting_current.steady fun place =>
      .read (builds_valueOr steady_synchronize) fun read =>
        .before (resting_checkProperty key read place).steady fun _ => .pure fun one => ?_
    have hinsert := Table.count_gather_insert interpolations key.text read node.properties one
    rw [List.count_append, Node.count_interpolations, Node.count_interpolations node]
    dsimp only
    omega
  refine .before steady_advance fun _ => .before resting_currentKind.steady fun _ =>
    .ite (fun _ => ?_) fun _ => ?_
  · exact .before steady_advance fun _ => hrest
  · exact .before (resting_report _).steady fun _ => hrest

theorem builds_attach (node : Node) (placed : PlacedDirective) :
    Builds (node.interpolations ++ placed.interpolations) (attach node placed)
      Node.interpolations := by
  have hattach : Builds (node.interpolations ++ placed.interpolations)
      (pure (node.attach placed.directive)) Node.interpolations := .pure fun one => by
    rw [List.count_append]
    exact node.count_attach_le placed.directive one
  unfold attach
  split
  · exact .ite (fun _ => .before (resting_report _).steady fun _ => hattach) fun _ => hattach
  · exact .ite (fun _ => .before (resting_report _).steady fun _ => hattach) fun _ => hattach
  · exact hattach

/-- What is held is built of what it reads. -/
structure HeldBuilds (held : Held) : Prop where
  element : Builds [] held.element Node.interpolations
  directive : ∀ allowBody,
    Builds [] (held.directive allowBody) (optionParts PlacedDirective.interpolations)
  conditional : Builds [] held.conditional Directive.interpolations

section

variable {held : Held} (hheld : HeldBuilds held)
include hheld

theorem builds_attachDirective (allowBody : Bool) (node : Node) :
    Builds node.interpolations (attachDirective held allowBody node) Node.interpolations := by
  refine .read (hheld.directive allowBody) fun found => ?_
  cases found with
  | none => exact .give (List.append_nil _).symm
  | some placed =>
      rw [optionParts_some]
      exact builds_attach node placed

/-! ## Bodies -/

theorem builds_bodyItem (node : Node) :
    Builds node.interpolations (bodyItem held node) Node.interpolations := by
  refine .before resting_currentKind.steady fun kind => ?_
  split
  · exact builds_attachDirective hheld true node
  · refine .before steady_advance fun _ => .before (resting_use .spread).steady fun _ =>
      .read (builds_valueOr steady_synchronize) fun read => .pure fun one => ?_
    rw [List.count_append, Node.count_interpolations, Node.count_interpolations node]
    dsimp only
    rw [List.flatMap_append, List.flatMap_singleton, List.count_append]
    omega
  · refine .before resting_propertyAhead.steady fun _ => .ite (fun _ => builds_property node)
      fun _ => ?_
    refine .read hheld.element fun child => .pure fun one => ?_
    rw [List.count_append, Node.count_interpolations, Node.count_interpolations node]
    dsimp only
    rw [List.flatMap_append, List.flatMap_singleton, List.count_append]
    omega
  · refine .before (resting_peekKind 1).steady fun _ => .ite (fun _ => builds_property node)
      fun _ => ?_
    exact .skipped rfl

theorem builds_indentedBody (node : Node) :
    Builds node.interpolations (indentedBody held node) Node.interpolations := by
  have hitem (node : Node) : Builds node.interpolations (indentedItem held node)
      Node.interpolations := by
    refine .before resting_get.steady fun _ => .bind (builds_bodyItem hheld node) fun value =>
      .before resting_get.steady fun _ => .ite (fun _ => ?_) fun _ => .give rfl
    exact .before steady_advance fun _ => .give rfl
  let parts (found : Node × Nat) : List Interpolation := found.1.interpolations
  have hloop : Builds (parts (node, 0)) (iterate (node, 0) (indentedTurn held)) parts := by
    refine .iterate ?_
    rintro ⟨node, further⟩
    refine .before resting_currentKind.steady fun kind => ?_
    split
    · exact .before steady_advance fun _ => .give rfl
    · exact .before steady_advance fun _ => .give rfl
    · refine .before steady_advance fun _ => .ite (fun _ => .give rfl) fun _ => ?_
      exact .bind (.lower further) fun _ => .give rfl
    · exact .give rfl
    · exact .before (resting_unexpected _).steady fun _ => .before steady_advance fun _ => .give rfl
    · exact .bind (hitem node) fun _ => .give rfl
  exact .bind hloop fun _ => .give rfl

/-! ## Heads of elements -/

omit hheld in
theorem builds_elementName (node : Node) (headLine : Nat) :
    Builds node.interpolations (elementName node headLine) Node.interpolations := by
  have hname : Builds node.interpolations (givenName node) Node.interpolations := by
    refine .before resting_current.steady fun token => ?_
    split
    · exact .before steady_advance fun _ => .same rfl
    · exact .before (resting_reportUnterminated token).steady fun _ =>
        .before steady_advance fun _ => .same rfl
    · exact .before (resting_peekKind 1).steady fun _ => .ite (fun _ => .give rfl) fun _ =>
        .before steady_advance fun _ => .same rfl
    · exact .give rfl
  have hid (node : Node) : Builds node.interpolations (givenId node headLine)
      Node.interpolations := by
    refine .before resting_current.steady fun _ => .ite (fun _ => ?_) fun _ => .give rfl
    refine .before steady_advance fun _ => .before resting_current.steady fun _ =>
      .ite (fun _ => ?_) fun _ => ?_
    · exact .before steady_advance fun _ => .same rfl
    · exact .before (resting_unexpected _).steady fun _ => .give rfl
  refine .before resting_current.steady fun _ => .ite (fun _ => .give rfl) fun _ => ?_
  exact .bind hname hid

omit hheld in
theorem builds_templateParams (node : Node) :
    Builds node.interpolations (templateParams node) Node.interpolations := by
  unfold templateParams
  split
  next hkind =>
    refine .before (resting_check .leftParen).steady fun _ => .ite (fun _ => ?_) fun _ => .give rfl
    refine .before steady_paramList fun _ => .same ?_
    rw [Node.contents, Node.contents, hkind]
    rfl
  next => exact .give rfl

omit hheld in
theorem builds_elementTemplate (node : Node) (headLine : Nat) :
    Builds node.interpolations (elementTemplate node headLine) Node.interpolations := by
  have hset (token : Token) : Builds node.interpolations (setTemplate node token)
      Node.interpolations := by
    unfold setTemplate
    split
    next hkind =>
      refine .same ?_
      rw [Node.contents, Node.contents, hkind]
      rfl
    next => exact .before (resting_report _).steady fun _ => .give rfl
  refine .before resting_current.steady fun _ => .ite (fun _ => ?_) fun _ => .give rfl
  refine .before steady_advance fun _ => .before resting_current.steady fun token => ?_
  split
  · exact .before steady_advance fun _ => hset token
  · exact .before steady_advance fun _ => hset token
  · exact .before (resting_reportUnterminated token).steady fun _ =>
      .before steady_advance fun _ => hset token
  · exact .before (resting_unexpected _).steady fun _ => .give rfl

theorem builds_elementHead (node : Node) (headLine : Nat) :
    Builds node.interpolations (elementHead held node headLine) Node.interpolations := by
  refine Builds.iterate fun node => .before resting_current.steady fun token =>
    .ite (fun _ => .give rfl) fun _ => ?_
  split
  case h_9 => exact .bind (builds_attachDirective hheld false node) fun _ => .give rfl
  case h_10 =>
    refine .before (resting_peekKind 1).steady fun _ => .ite (fun _ => ?_) fun _ => .give rfl
    exact .bind (builds_property node) fun _ => .give rfl
  case h_11 =>
    exact .before (resting_unexpected _).steady fun _ => .before (steady_skipHead headLine)
      fun _ => .give rfl
  all_goals exact .give rfl

/-! ## Elements -/

theorem builds_elementRest (node : Node) (headLine : Nat) :
    Builds node.interpolations (elementRest held node headLine) Node.interpolations := by
  have hbody (node : Node) : Builds node.interpolations (elementBody held node)
      Node.interpolations := by
    refine .before resting_get.steady fun _ => .before (resting_check .newline).steady fun _ =>
      .before (resting_peekKind 1).steady fun _ => .before (resting_check .leftBrace).steady
        fun _ => .ite (fun _ => ?_) fun _ => .ite (fun _ => ?_) fun _ => .give rfl
    · exact .braced (builds_bodyItem hheld)
    · exact .before steady_advance fun _ => .before steady_advance fun _ =>
        .before (resting_use .indentation).steady fun _ => builds_indentedBody hheld node
  refine .bind (builds_elementName node headLine) fun node =>
    .bind (builds_templateParams node) fun node => .bind (builds_elementTemplate node headLine)
      fun node => .bind (builds_elementHead hheld node headLine) hbody

omit hheld in
/-- An element of a kind that has nothing in it yet, with what is read of it one level deeper. -/
theorem builds_opened {kind : NodeKind} {start : Position} {body : Node → Parser Node}
    (hkind : kind.interpolations = [])
    (hbody : ∀ node : Node, Builds node.interpolations (body node) Node.interpolations) :
    Builds [] (do
      close (← deeper (refuseElement (.ofKind kind default)) (body (.ofKind kind default))) start)
      Node.interpolations := by
  have hempty : (Node.ofKind kind default).interpolations = [] := by
    rw [Node.interpolations_ofKind, hkind]
  have hrefused : Builds [] (refuseElement (.ofKind kind default)) Node.interpolations :=
    .before steady_skipElement fun _ => .give hempty
  refine .bind (.deeper hrefused ?_) fun node => builds_close node start
  have hbody := hbody (.ofKind kind default)
  rwa [hempty] at hbody

theorem builds_genericElement {kind : NodeKind} (hkind : kind.interpolations = []) :
    Builds [] (genericElement held kind) Node.interpolations :=
  .before resting_current.steady fun keyword => .before steady_advance fun _ =>
    builds_opened hkind fun node => builds_elementRest hheld node keyword.line

theorem builds_exported : Builds [] (exported held) Node.interpolations := by
  refine .before resting_startPosition.steady fun start => .before steady_advance fun _ =>
    .bind (.deeper ?_ ?_) fun node => builds_close node start
  · exact .before steady_skipElement fun _ => .give (Node.interpolations_fragment default)
  · exact .bind hheld.element fun _ => .same rfl

omit hheld in
theorem builds_function : Builds [] function Node.interpolations := by
  have hempty (params : List String) (body : String) :
      (Node.ofKind (.function params body) default).interpolations = [] :=
    Node.interpolations_ofKind _ _
  refine .before resting_startPosition.steady fun start => .before steady_advance fun _ =>
    .before (resting_use .logic).steady fun _ => .before (steady_expectName _) fun found => ?_
  cases found with
  | none =>
      refine .before steady_synchronize fun _ => ?_
      exact .before (resting_locationFrom start).steady fun _ => .give (hempty [] "")
  | some name =>
      refine .before steady_paramList fun params => .before steady_blockText fun body => ?_
      exact .before (resting_locationFrom start).steady fun _ => .give (hempty params body)

end

/-! ## Blocks of logic -/

/-- A value is put under a name into a table, with nothing else in it to be found. -/
theorem builds_logicValue {α : Type} {parts : α → List Interpolation} (put : Table Value → α)
    (hput : ∀ table, parts (put table) = table.gather interpolations) (table : Table Value)
    (key : String) :
    Builds (parts (put table)) (do return put (table.insert key (← logicValue))) parts := by
  refine .read (builds_valueOr steady_synchronize) fun value => .pure fun one => ?_
  rw [hput, hput, List.count_append, Nat.add_comm]
  exact Table.count_gather_insert interpolations key value table one

theorem builds_logicItem (block : LogicBlock) :
    Builds block.interpolations (logicItem block) LogicBlock.interpolations := by
  have hvalue (key : String) : Builds block.interpolations
      (do return { block with values := block.values.insert key (← logicValue) })
      LogicBlock.interpolations :=
    builds_logicValue (fun values => { block with values := values }) (fun _ => rfl) _ key
  refine .before resting_current.steady fun token => .before (resting_peekKind 1).steady fun _ => ?_
  refine .ite (fun _ => ?_) fun _ => .ite (fun _ => ?_) fun _ => .ite (fun _ => ?_) fun _ =>
    .ite (fun _ => ?_) fun _ => ?_
  · refine .before steady_advance fun _ => .before (steady_expectName _) fun found => ?_
    cases found with
    | none => exact .before steady_synchronize fun _ => .give rfl
    | some name =>
        exact .before steady_paramList fun _ => .before steady_blockText fun _ => .give rfl
  · refine .before steady_advance fun _ => .before (steady_expectName _) fun found => ?_
    cases found with
    | none => exact .before steady_synchronize fun _ => .give rfl
    | some name =>
        refine .before resting_currentKind.steady fun _ => .ite (fun _ => ?_) fun _ => ?_
        · exact .before steady_advance fun _ => hvalue name
        · exact .before (resting_unexpected _).steady fun _ => hvalue name
  · exact .before steady_advance fun _ => .before steady_advance fun _ => hvalue token.text
  · exact .before steady_advance fun _ => .before steady_paramList fun _ =>
      .before steady_blockText fun _ => .ite (fun _ => .give rfl) fun _ => .give rfl
  · exact .skipped rfl

/-! ## States and transitions -/

theorem builds_stateItem (state : MachineState) :
    Builds state.interpolations (stateItem state) MachineState.interpolations := by
  refine .before resting_current.steady fun token => .before (resting_peekKind 1).steady fun _ => ?_
  refine .ite (fun _ => ?_) fun _ => .ite (fun _ => ?_) fun _ => .ite (fun _ => ?_) fun _ => ?_
  · exact .before steady_advance fun _ => .before steady_captureBlock fun _ => .give rfl
  · exact .before steady_advance fun _ => .before steady_captureBlock fun _ => .give rfl
  · exact .before steady_advance fun _ => .before steady_advance fun _ => builds_logicValue
      (fun properties => { state with properties := properties }) (fun _ => rfl) _ token.text
  · exact .skipped rfl

theorem builds_machineState : Builds [] machineState (optionParts MachineState.interpolations) := by
  refine .before (steady_expectName _) fun found => ?_
  cases found with
  | none => exact .give rfl
  | some name =>
      have hloop : Builds (MachineState.mk name none none []).interpolations
          (braced ⟨name, none, none, []⟩ stateItem) MachineState.interpolations :=
        .braced builds_stateItem
      refine .before (resting_check .leftBrace).steady fun _ => .ite (fun _ => ?_)
        fun _ => .give rfl
      exact .bind hloop fun state => .give (optionParts_some _ state)

theorem builds_addTransition (machine : StateMachine) :
    Builds machine.interpolations (addTransition machine) StateMachine.interpolations := by
  refine .before steady_transition fun found => ?_
  cases found <;> exact .give rfl

theorem builds_initialState (machine : StateMachine) :
    Builds machine.interpolations (initialState machine) StateMachine.interpolations := by
  have hname (keyword : Token) : Builds machine.interpolations (initialName machine keyword)
      StateMachine.interpolations := by
    refine .before (steady_expectName _) fun found => ?_
    cases found with
    | none => exact .before steady_synchronize fun _ => .give rfl
    | some name =>
        refine .ite (fun _ => ?_) fun _ => .give rfl
        exact .before (resting_report _).steady fun _ => .give rfl
  refine .before resting_current.steady fun keyword => .before steady_advance fun _ =>
    .before resting_currentKind.steady fun _ => .ite (fun _ => ?_) fun _ => ?_
  · exact .before steady_advance fun _ => hname keyword
  · exact .before (resting_report _).steady fun _ => hname keyword

theorem builds_transitionItem (machine : StateMachine) :
    Builds machine.interpolations (transitionItem machine) StateMachine.interpolations := by
  refine .before resting_currentKind.steady fun _ => .ite (fun _ => builds_addTransition machine)
    fun _ => ?_
  exact .skipped rfl

/-! ## A node and what it is to be -/

/-- A node and, beside it, what is read of its kind. -/
def draftParts {α : Type} (parts : α → List Interpolation) (draft : Node × α) :
    List Interpolation :=
  draft.1.interpolations ++ parts draft.2

/-- The kind of a node takes the place of another one. -/
theorem count_withKind_le (node : Node) (kind : NodeKind) (one : Interpolation) :
    ({ node with kind := kind }).interpolations.count one ≤
      (node.interpolations ++ kind.interpolations).count one := by
  rw [List.count_append, Node.count_interpolations, Node.count_interpolations node]
  dsimp only
  omega

section

variable {held : Held} (hheld : HeldBuilds held)
include hheld

theorem builds_logicTurn (found : Node × LogicBlock) :
    Builds (draftParts LogicBlock.interpolations found) (logicTurn held found)
      (draftParts LogicBlock.interpolations) := by
  obtain ⟨node, block⟩ := found
  refine .before resting_currentKind.steady fun kind => ?_
  split
  · exact .bind ((builds_logicItem block).behind _) fun _ => .give rfl
  · exact .bind ((builds_attachDirective hheld true node).ahead _) fun _ => .give rfl
  · exact .skipped rfl

theorem builds_logicRest (node : Node) (headLine : Nat) :
    Builds node.interpolations (logicRest held node headLine) Node.interpolations := by
  have hkind {given : List Interpolation} (node : Node) (block : LogicBlock)
      (hgiven : draftParts LogicBlock.interpolations (node, block) = given) :
      Builds given (pure { node with kind := .logic block }) Node.interpolations := by
    subst hgiven
    exact .pure (count_withKind_le node (.logic block))
  refine .bind (builds_elementName node headLine) fun node =>
    .before (resting_check .leftBrace).steady fun _ => .ite (fun _ => ?_) fun _ => ?_
  · have hloop : Builds (draftParts LogicBlock.interpolations (node, .empty))
        (braced (node, .empty) (logicTurn held)) (draftParts LogicBlock.interpolations) :=
      .braced (builds_logicTurn hheld)
    rw [draftParts, show LogicBlock.empty.interpolations = [] from rfl, List.append_nil] at hloop
    exact .bind hloop fun found => hkind found.1 found.2 rfl
  · exact .before (resting_unexpected _).steady fun _ => .before steady_synchronize fun _ =>
      hkind node .empty (List.append_nil _)

theorem builds_logicElement : Builds [] (logicElement held) Node.interpolations :=
  .before resting_current.steady fun keyword => .before steady_advance fun _ =>
    .before (resting_use .logic).steady fun _ =>
      builds_opened rfl fun node => builds_logicRest hheld node keyword.line

theorem builds_machineItem (found : Node × StateMachine) :
    Builds (draftParts StateMachine.interpolations found) (machineItem held found)
      (draftParts StateMachine.interpolations) := by
  obtain ⟨node, machine⟩ := found
  have hmachine {p : Parser StateMachine}
      (hp : Builds machine.interpolations p StateMachine.interpolations) :
      Builds (draftParts StateMachine.interpolations (node, machine)) (do return (node, ← p))
        (draftParts StateMachine.interpolations) :=
    .bind (hp.behind _) fun _ => .give rfl
  have hnode {p : Parser Node} (hp : Builds node.interpolations p Node.interpolations) :
      Builds (draftParts StateMachine.interpolations (node, machine)) (do return (← p, machine))
        (draftParts StateMachine.interpolations) :=
    .bind (hp.ahead _) fun _ => .give rfl
  refine .before resting_current.steady fun token => .before (resting_peekKind 1).steady fun _ => ?_
  refine .ite (fun _ => hnode (builds_attachDirective hheld true node)) fun _ =>
    .ite (fun _ => hmachine (builds_initialState machine)) fun _ => .ite (fun _ => ?_) fun _ =>
      .ite (fun _ => ?_) fun _ => .ite (fun _ => hmachine (builds_addTransition machine)) fun _ =>
        .ite (fun _ => hnode (builds_property node)) fun _ => ?_
  · refine .before steady_advance fun _ => .read builds_machineState fun found => ?_
    cases found with
    | none => exact .give (List.append_nil _).symm
    | some state =>
        refine .give ?_
        simp [draftParts, optionParts_some, StateMachine.interpolations]
  · exact .before steady_advance fun _ => hmachine (.braced builds_transitionItem)
  · exact .skipped rfl

theorem builds_machineRest (node : Node) (keyword : Token) :
    Builds node.interpolations (machineRest held node keyword) Node.interpolations := by
  refine .bind (builds_elementName node keyword.line) fun node => ?_
  have hempty : draftParts StateMachine.interpolations (node, .empty) = node.interpolations :=
    List.append_nil _
  have hbody : Builds node.interpolations (machineBody held node)
      (draftParts StateMachine.interpolations) := by
    refine .before (resting_check .leftBrace).steady fun _ => .ite (fun _ => ?_) fun _ => ?_
    · rw [← hempty]
      exact .braced (builds_machineItem hheld)
    · exact .skipped hempty
  refine .bind hbody fun found => ?_
  have hkind : Builds (draftParts StateMachine.interpolations found)
      (pure { found.1 with kind := .stateMachine found.2 }) Node.interpolations :=
    .pure (count_withKind_le found.1 (.stateMachine found.2))
  exact .ite (fun _ => .before (resting_report _).steady fun _ => hkind) fun _ => hkind

theorem builds_stateMachine : Builds [] (stateMachine held) Node.interpolations :=
  .before resting_current.steady fun keyword => .before steady_advance fun _ =>
    .before (resting_use .stateMachines).steady fun _ =>
      builds_opened rfl fun node => builds_machineRest hheld node keyword

/-! ## Every element -/

theorem builds_elementWith : Builds [] (elementWith held) Node.interpolations := by
  refine .before resting_current.steady fun token => .before (resting_peekKind 1).steady fun _ => ?_
  refine .ite (fun _ => builds_exported hheld) fun _ => .ite (fun _ => builds_function) fun _ =>
    .ite (fun _ => builds_logicElement hheld) fun _ =>
      .ite (fun _ => builds_stateMachine hheld) fun _ => .ite (fun _ => ?_) fun _ =>
        .ite (fun _ => ?_) fun _ => .ite (fun _ => ?_) fun _ => ?_
  · exact .before (resting_use .templates).steady fun _ => builds_genericElement hheld rfl
  · exact .before (resting_use .environment).steady fun _ => builds_genericElement hheld rfl
  · exact builds_genericElement hheld rfl
  · exact .before (resting_checkKeyword token).steady fun _ => builds_genericElement hheld rfl

end

end Parser

end SceneLang
