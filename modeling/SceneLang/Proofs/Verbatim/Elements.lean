import SceneLang.Proofs.Parser.Logic
import SceneLang.Proofs.Verbatim.Values

/-!
# The bodies of elements

While an element is read, its node holds the bodies of what has been read of it so far.  A block of
logic or a state machine is carried beside the node that it will be the kind of, until it is put in.
-/

namespace SceneLang

def PlacedDirective.rawBodies (placed : PlacedDirective) : List RawBody :=
  placed.directive.rawBodies

/-- The bodies of what is found, if anything is. -/
def optionBodies {α : Type} (parts : α → List RawBody) (found : Option α) : List RawBody :=
  found.toList.flatMap parts

theorem optionBodies_some {α : Type} (parts : α → List RawBody) (found : α) :
    optionBodies parts (some found) = parts found :=
  List.flatMap_singleton parts found

namespace Parser

variable {source : List Char}

/-! ## Properties and directives -/

/-- A node that differs from the one that is given in nothing that has bodies. -/
theorem Quotes.giveNode {node value : Node} (hkind : value.kind.rawBodies = node.kind.rawBodies)
    (hheld : value.heldBodies = node.heldBodies) :
    Quotes source node.rawBodies (Pure.pure value) Node.rawBodies :=
  .give (by rw [Node.rawBodies_eq, Node.rawBodies_eq, hkind, hheld])

theorem quotes_close (node : Node) (start : Position) :
    Quotes source node.rawBodies (close node start) Node.rawBodies :=
  .before (resting_locationFrom start).steady fun _ => .giveNode rfl rfl

theorem quotes_property (node : Node) :
    Quotes source node.rawBodies (property node) Node.rawBodies := by
  apply Quotes.before resting_current.steady
  intro key
  have hrest : Quotes source node.rawBodies (do
      let place ← current
      let read ← valueOr synchronize
      checkProperty key read place
      return { node with properties := node.properties.insert key.text read }) Node.rawBodies := by
    apply Quotes.before resting_current.steady
    intro place
    apply Quotes.read (quotes_valueOr steady_synchronize)
    intro read
    apply Quotes.before (resting_checkProperty key read place).steady
    exact fun _ => .pure (node.rawBodies_property key.text read)
  apply Quotes.before steady_advance
  intro _
  apply Quotes.before resting_currentKind.steady
  intro _
  apply Quotes.ite
  · exact fun _ => .before steady_advance fun _ => hrest
  · exact fun _ => .before (resting_report _).steady fun _ => hrest

theorem quotes_attach (node : Node) (placed : PlacedDirective) :
    Quotes source (node.rawBodies ++ placed.rawBodies) (attach node placed) Node.rawBodies := by
  have hattach : Quotes source (node.rawBodies ++ placed.rawBodies)
      (pure (node.attach placed.directive)) Node.rawBodies :=
    .pure (node.rawBodies_attach placed.directive)
  unfold attach
  split
  · exact .ite (fun _ => .before (resting_report _).steady fun _ => hattach) fun _ => hattach
  · exact .ite (fun _ => .before (resting_report _).steady fun _ => hattach) fun _ => hattach
  · exact hattach

/-- What is held quotes the bodies that it reads. -/
structure HeldQuotes (source : List Char) (held : Held) : Prop where
  element : Quotes source [] held.element Node.rawBodies
  directive : ∀ allowBody, Quotes source [] (held.directive allowBody)
    (optionBodies PlacedDirective.rawBodies)
  conditional : Quotes source [] held.conditional Directive.rawBodies

section

variable {held : Held} (hheld : HeldQuotes source held)
include hheld

theorem quotes_attachDirective (allowBody : Bool) (node : Node) :
    Quotes source node.rawBodies (attachDirective held allowBody node) Node.rawBodies := by
  apply Quotes.read (hheld.directive allowBody)
  intro found
  cases found with
  | none => exact .give (List.append_nil _).symm
  | some placed =>
      rw [optionBodies_some]
      exact quotes_attach node placed

/-! ## Bodies of elements -/

theorem quotes_bodyItem (node : Node) :
    Quotes source node.rawBodies (bodyItem held node) Node.rawBodies := by
  apply Quotes.before resting_currentKind.steady
  intro kind
  split
  · exact quotes_attachDirective hheld true node
  · exact .before steady_advance fun _ => .before (resting_use .spread).steady fun _ =>
      .read (quotes_valueOr steady_synchronize) fun read => .pure (node.rawBodies_spread read)
  · apply Quotes.before resting_propertyAhead.steady
    intro _
    apply Quotes.ite
    · exact fun _ => quotes_property node
    · exact fun _ => .read hheld.element fun child => .pure (node.rawBodies_child child)
  · apply Quotes.before (resting_peekKind 1).steady
    exact fun _ => .ite (fun _ => quotes_property node) fun _ => .skipped rfl

theorem quotes_indentedBody (node : Node) :
    Quotes source node.rawBodies (indentedBody held node) Node.rawBodies := by
  have hitem (node : Node) : Quotes source node.rawBodies (indentedItem held node)
      Node.rawBodies := by
    apply Quotes.before resting_get.steady
    intro _
    apply (quotes_bodyItem hheld node).bind
    intro value
    apply Quotes.before resting_get.steady
    exact fun _ => .ite (fun _ => .before steady_advance fun _ => .give rfl) fun _ => .give rfl
  let parts (found : Node × Nat) : List RawBody := found.1.rawBodies
  have hloop : Quotes source (parts (node, 0)) (iterate (node, 0) (indentedTurn held)) parts := by
    apply Quotes.iterate
    rintro ⟨node, further⟩
    apply Quotes.before resting_currentKind.steady
    intro kind
    split
    · exact .before steady_advance fun _ => .give rfl
    · exact .before steady_advance fun _ => .give rfl
    · apply Quotes.before steady_advance
      exact fun _ => .ite (fun _ => .give rfl) fun _ => .bind (.lower further) fun _ => .give rfl
    · exact .give rfl
    · exact .before (resting_unexpected _).steady fun _ => .before steady_advance fun _ => .give rfl
    · exact .bind (hitem node) fun _ => .give rfl
  exact hloop.bind fun _ => .give rfl

/-! ## Heads of elements -/

omit hheld in
theorem quotes_elementName (node : Node) (headLine : Nat) :
    Quotes source node.rawBodies (elementName node headLine) Node.rawBodies := by
  have hname : Quotes source node.rawBodies (givenName node) Node.rawBodies := by
    apply Quotes.before resting_current.steady
    intro token
    split
    · exact .before steady_advance fun _ => .giveNode rfl rfl
    · exact .before (resting_reportUnterminated token).steady fun _ =>
        .before steady_advance fun _ => .giveNode rfl rfl
    · apply Quotes.before (resting_peekKind 1).steady
      exact fun _ => .ite (fun _ => .give rfl) fun _ => .before steady_advance fun _ =>
        .giveNode rfl rfl
    · exact .give rfl
  have hid (node : Node) : Quotes source node.rawBodies (givenId node headLine)
      Node.rawBodies := by
    apply Quotes.before resting_current.steady
    intro mark
    apply Quotes.ite
    · intro _
      apply Quotes.before steady_advance
      intro _
      apply Quotes.before resting_current.steady
      exact fun _ => .ite (fun _ => .before steady_advance fun _ =>
        .giveNode rfl rfl) fun _ =>
          .before (resting_unexpected _).steady fun _ => .give rfl
    · exact fun _ => .give rfl
  apply Quotes.before resting_current.steady
  exact fun _ => .ite (fun _ => .give rfl) fun _ => .bind hname hid

omit hheld in
/-- Parameters of a template add no bodies. -/
theorem quotes_templateParams (node : Node) :
    Quotes source node.rawBodies (templateParams node) Node.rawBodies := by
  unfold templateParams
  split
  next hkind =>
    apply Quotes.before (resting_check .leftParen).steady
    intro _
    apply Quotes.ite
    · exact fun _ => .before steady_paramList fun _ =>
        .giveNode (by rw [hkind]; rfl) rfl
    · exact fun _ => .give rfl
  next => exact .give rfl

omit hheld in
theorem quotes_elementTemplate (node : Node) (headLine : Nat) :
    Quotes source node.rawBodies (elementTemplate node headLine) Node.rawBodies := by
  have hset (token : Token) : Quotes source node.rawBodies (setTemplate node token)
      Node.rawBodies := by
    unfold setTemplate
    split
    next hkind => exact .giveNode (by rw [hkind]; rfl) rfl
    next => exact .before (resting_report _).steady fun _ => .give rfl
  apply Quotes.before resting_current.steady
  intro mark
  apply Quotes.ite
  · intro _
    apply Quotes.before steady_advance
    intro _
    apply Quotes.before resting_current.steady
    intro token
    split
    · exact .before steady_advance fun _ => hset token
    · exact .before steady_advance fun _ => hset token
    · exact .before (resting_reportUnterminated token).steady fun _ =>
        .before steady_advance fun _ => hset token
    · exact .before (resting_unexpected _).steady fun _ => .give rfl
  · exact fun _ => .give rfl

theorem quotes_elementHead (node : Node) (headLine : Nat) :
    Quotes source node.rawBodies (elementHead held node headLine) Node.rawBodies := by
  apply Quotes.iterate
  intro node
  apply Quotes.before resting_current.steady
  intro token
  apply Quotes.ite
  · exact fun _ => .give rfl
  intro _
  split
  case h_9 => exact .bind (quotes_attachDirective hheld false node) fun _ => .give rfl
  case h_10 =>
    apply Quotes.before (resting_peekKind 1).steady
    exact fun _ => .ite (fun _ => .bind (quotes_property node) fun _ => .give rfl) fun _ =>
      .give rfl
  case h_11 =>
    exact .before (resting_unexpected _).steady fun _ => .before (steady_skipHead headLine)
      fun _ => .give rfl
  all_goals exact .give rfl

/-! ## Elements -/

theorem quotes_elementRest (node : Node) (headLine : Nat) :
    Quotes source node.rawBodies (elementRest held node headLine) Node.rawBodies := by
  have hbody (node : Node) : Quotes source node.rawBodies (elementBody held node)
      Node.rawBodies := by
    apply Quotes.before resting_get.steady
    intro _
    apply Quotes.before (resting_check .newline).steady
    intro _
    apply Quotes.before (resting_peekKind 1).steady
    intro _
    apply Quotes.before (resting_check .leftBrace).steady
    intro _
    apply Quotes.ite
    · exact fun _ => .braced (quotes_bodyItem hheld)
    intro _
    apply Quotes.ite
    · exact fun _ => .before steady_advance fun _ => .before steady_advance fun _ =>
        .before (resting_use .indentation).steady fun _ => quotes_indentedBody hheld node
    · exact fun _ => .give rfl
  exact .bind (quotes_elementName node headLine) fun node =>
    .bind (quotes_templateParams node) fun node =>
      .bind (quotes_elementTemplate node headLine) fun node =>
        .bind (quotes_elementHead hheld node headLine) hbody

omit hheld in
/-- An element of a kind without bodies, with what is read of it one level deeper. -/
theorem quotes_opened {kind : NodeKind} {start : Position} (body : Node → Parser Node)
    (hkind : kind.rawBodies = []) (hbody : Quotes source [] (body (.ofKind kind default))
      Node.rawBodies) :
    Quotes source [] (do
      close (← deeper (refuseElement (.ofKind kind default)) (body (.ofKind kind default))) start)
      Node.rawBodies := by
  have hrefused : Quotes source [] (refuseElement (.ofKind kind default)) Node.rawBodies :=
    .before steady_skipElement fun _ => .give ((Node.rawBodies_ofKind kind default).trans hkind)
  exact .bind (.deeper hrefused hbody) fun node => quotes_close node start

theorem quotes_genericElement {kind : NodeKind} (hkind : kind.rawBodies = []) :
    Quotes source [] (genericElement held kind) Node.rawBodies := by
  apply Quotes.before resting_current.steady
  intro keyword
  apply Quotes.before steady_advance
  intro _
  have hrest := quotes_elementRest hheld (.ofKind kind default) keyword.line
  rw [Node.rawBodies_ofKind, hkind] at hrest
  exact quotes_opened (elementRest held · keyword.line) hkind hrest

theorem quotes_exported : Quotes source [] (exported held) Node.rawBodies := by
  apply Quotes.before resting_startPosition.steady
  intro start
  apply Quotes.before steady_advance
  intro _
  have hrefused : Quotes source [] (refuseElement (.fragment [] default)) Node.rawBodies :=
    .before steady_skipElement fun _ => .give (Node.rawBodies_ofKind .fragment default)
  have hbody : Quotes source [] (do return { ← held.element with exported := true })
      Node.rawBodies :=
    hheld.element.bind fun _ => .giveNode rfl rfl
  exact .bind (.deeper hrefused hbody) fun node => quotes_close node start

omit hheld in
theorem quotes_function : Quotes source [] function Node.rawBodies := by
  apply Quotes.before resting_startPosition.steady
  intro start
  apply Quotes.before steady_advance
  intro _
  apply Quotes.before (resting_use .logic).steady
  intro _
  apply (quotes_expectName _).bind
  intro found
  cases found with
  | none =>
      apply Quotes.before steady_synchronize
      intro _
      exact quotes_close (.ofKind (.function [] "") default) start
  | some name =>
      apply Quotes.before steady_paramList
      intro params
      apply (quotes_blockText true).bind
      intro body
      exact quotes_close { Node.ofKind (.function params body) default with name := some name } start

end

/-! ## Blocks of logic -/

/-- A value is put under a name into a table, beside bodies that are kept. -/
theorem quotes_logicValue {α : Type} {parts : α → List RawBody} (kept : List RawBody)
    (put : Table Value → α)
    (hput : ∀ table, parts (put table) = kept ++ table.gather Value.rawBodies)
    (table : Table Value) (key : String) :
    Quotes source (parts (put table)) (do return put (table.insert key (← logicValue))) parts := by
  apply Quotes.read (quotes_valueOr steady_synchronize)
  intro value
  apply Quotes.pure
  have hinsert := Table.flatMap_insert_subset (fun entry => entry.2.rawBodies) key value table
  rw [hput, hput, List.append_assoc]
  exact List.append_subset.mpr ⟨List.subset_append_left _ _,
    List.subset_append_of_subset_right _ hinsert⟩

theorem quotes_logicItem (block : LogicBlock) :
    Quotes source block.rawBodies (logicItem block) LogicBlock.rawBodies := by
  have hvalue (key : String) : Quotes source block.rawBodies
      (do return { block with values := block.values.insert key (← logicValue) })
      LogicBlock.rawBodies :=
    quotes_logicValue (block.functions.map (⟨·.body, true⟩) ++ block.handlers.map (⟨·.body, true⟩))
      (fun values => { block with values := values }) (fun _ => rfl) _ key
  apply Quotes.before resting_current.steady
  intro token
  apply Quotes.before (resting_peekKind 1).steady
  intro next
  apply Quotes.ite
  · intro _
    apply Quotes.before steady_advance
    intro _
    apply Quotes.before (steady_expectName _)
    intro found
    cases found with
    | none => exact .before steady_synchronize fun _ => .give rfl
    | some name =>
        exact .before steady_paramList fun params => .read (quotes_blockText true) fun body =>
          .pure (block.rawBodies_function name params body)
  intro _
  apply Quotes.ite
  · intro _
    apply Quotes.before steady_advance
    intro _
    apply Quotes.before (steady_expectName _)
    intro found
    cases found with
    | none => exact .before steady_synchronize fun _ => .give rfl
    | some name =>
        apply Quotes.before resting_currentKind.steady
        exact fun _ => .ite (fun _ => .before steady_advance fun _ => hvalue name) fun _ =>
          .before (resting_unexpected _).steady fun _ => hvalue name
  intro _
  apply Quotes.ite
  · exact fun _ => .before steady_advance fun _ => .before steady_advance fun _ => hvalue token.text
  intro _
  apply Quotes.ite
  · intro _
    apply Quotes.before steady_advance
    intro _
    apply Quotes.before steady_paramList
    intro params
    apply Quotes.read (quotes_blockText true)
    exact fun body => .ite (fun _ => .pure (block.rawBodies_handler token.text params body))
      fun _ => .pure (block.rawBodies_function token.text params body)
  · exact fun _ => .skipped rfl

/-! ## States and transitions -/

theorem quotes_stateItem (state : MachineState) :
    Quotes source state.rawBodies (stateItem state) MachineState.rawBodies := by
  apply Quotes.before resting_current.steady
  intro token
  apply Quotes.before (resting_peekKind 1).steady
  intro next
  apply Quotes.ite
  · exact fun _ => .before steady_advance fun _ => .read quotes_captureBlock fun found =>
      .pure (state.rawBodies_onEntry found)
  intro _
  apply Quotes.ite
  · exact fun _ => .before steady_advance fun _ => .read quotes_captureBlock fun found =>
      .pure (state.rawBodies_onExit found)
  intro _
  apply Quotes.ite
  · exact fun _ => .before steady_advance fun _ => .before steady_advance fun _ =>
      quotes_logicValue (state.onEntry.toList.map (⟨·, true⟩) ++ state.onExit.toList.map (⟨·, true⟩))
        (fun properties => { state with properties := properties })
        (fun _ => rfl) _ token.text
  · exact fun _ => .skipped rfl

theorem quotes_machineState :
    Quotes source [] machineState (optionBodies MachineState.rawBodies) := by
  apply Quotes.before (steady_expectName _)
  intro found
  cases found with
  | none => exact .give rfl
  | some name =>
      have hloop : Quotes source (MachineState.mk name none none []).rawBodies
          (braced ⟨name, none, none, []⟩ stateItem) MachineState.rawBodies :=
        .braced quotes_stateItem
      apply Quotes.before (resting_check .leftBrace).steady
      exact fun _ => .ite (fun _ => hloop.bind fun state => .give (optionBodies_some _ state))
        fun _ => .give rfl

theorem quotes_addTransition (machine : StateMachine) :
    Quotes source machine.rawBodies (addTransition machine) StateMachine.rawBodies := by
  apply Quotes.before steady_transition
  intro found
  cases found with
  | none => exact .give rfl
  | some transition => exact .give rfl

theorem quotes_initialState (machine : StateMachine) :
    Quotes source machine.rawBodies (initialState machine) StateMachine.rawBodies := by
  have hname (keyword : Token) : Quotes source machine.rawBodies (initialName machine keyword)
      StateMachine.rawBodies := by
    apply Quotes.before (steady_expectName _)
    intro found
    cases found with
    | none => exact .before steady_synchronize fun _ => .give rfl
    | some name =>
        exact .ite (fun _ => .before (resting_report _).steady fun _ => .give rfl) fun _ =>
          .give rfl
  apply Quotes.before resting_current.steady
  intro keyword
  apply Quotes.before steady_advance
  intro _
  apply Quotes.before resting_currentKind.steady
  exact fun _ => .ite (fun _ => .before steady_advance fun _ => hname keyword) fun _ =>
    .before (resting_report _).steady fun _ => hname keyword

theorem quotes_transitionItem (machine : StateMachine) :
    Quotes source machine.rawBodies (transitionItem machine) StateMachine.rawBodies := by
  apply Quotes.before resting_currentKind.steady
  exact fun _ => .ite (fun _ => quotes_addTransition machine) fun _ => .skipped rfl

/-! ## A node and what it is to be -/

/-- The bodies of a node and, beside it, of what is read of its kind. -/
def draftBodies {α : Type} (parts : α → List RawBody) (found : Node × α) : List RawBody :=
  found.1.rawBodies ++ parts found.2

section

variable {held : Held} (hheld : HeldQuotes source held)
include hheld

theorem quotes_logicTurn (found : Node × LogicBlock) :
    Quotes source (draftBodies LogicBlock.rawBodies found) (logicTurn held found)
      (draftBodies LogicBlock.rawBodies) := by
  obtain ⟨node, block⟩ := found
  apply Quotes.before resting_currentKind.steady
  intro kind
  split
  · exact .bind ((quotes_logicItem block).behind _) fun _ => .give rfl
  · exact .bind ((quotes_attachDirective hheld true node).ahead _) fun _ => .give rfl
  · exact .skipped rfl

theorem quotes_logicRest (node : Node) (headLine : Nat) :
    Quotes source node.rawBodies (logicRest held node headLine) Node.rawBodies := by
  have hempty (node : Node) : draftBodies LogicBlock.rawBodies (node, .empty) = node.rawBodies :=
    List.append_nil _
  have hkind (node : Node) (block : LogicBlock) :
      Quotes source (draftBodies LogicBlock.rawBodies (node, block))
        (pure { node with kind := .logic block }) Node.rawBodies :=
    .pure (node.rawBodies_withKind (.logic block))
  apply (quotes_elementName node headLine).bind
  intro node
  apply Quotes.before (resting_check .leftBrace).steady
  intro _
  rw [← hempty node]
  apply Quotes.ite
  · exact fun _ => .bind (.braced (quotes_logicTurn hheld)) fun found => hkind found.1 found.2
  · exact fun _ => .before (resting_unexpected _).steady fun _ => .before steady_synchronize
      fun _ => hkind node .empty

theorem quotes_logicElement : Quotes source [] (logicElement held) Node.rawBodies := by
  apply Quotes.before resting_current.steady
  intro keyword
  apply Quotes.before steady_advance
  intro _
  apply Quotes.before (resting_use .logic).steady
  intro _
  exact quotes_opened (logicRest held · keyword.line) rfl
    (quotes_logicRest hheld (.ofKind (.logic .empty) default) keyword.line)

theorem quotes_machineItem (found : Node × StateMachine) :
    Quotes source (draftBodies StateMachine.rawBodies found) (machineItem held found)
      (draftBodies StateMachine.rawBodies) := by
  obtain ⟨node, machine⟩ := found
  have hmachine {p : Parser StateMachine}
      (hp : Quotes source machine.rawBodies p StateMachine.rawBodies) :
      Quotes source (draftBodies StateMachine.rawBodies (node, machine))
        (do return (node, ← p)) (draftBodies StateMachine.rawBodies) :=
    .bind (hp.behind _) fun _ => .give rfl
  have hnode {p : Parser Node} (hp : Quotes source node.rawBodies p Node.rawBodies) :
      Quotes source (draftBodies StateMachine.rawBodies (node, machine))
        (do return (← p, machine)) (draftBodies StateMachine.rawBodies) :=
    .bind (hp.ahead _) fun _ => .give rfl
  apply Quotes.before resting_current.steady
  intro token
  apply Quotes.before (resting_peekKind 1).steady
  intro next
  apply Quotes.ite
  · exact fun _ => hnode (quotes_attachDirective hheld true node)
  intro _
  apply Quotes.ite
  · exact fun _ => hmachine (quotes_initialState machine)
  intro _
  apply Quotes.ite
  · intro _
    apply Quotes.before steady_advance
    intro _
    apply Quotes.read quotes_machineState
    intro found
    cases found with
    | none => exact .give (List.append_nil _).symm
    | some state =>
        apply Quotes.give
        simp [draftBodies, optionBodies_some, StateMachine.rawBodies]
  intro _
  apply Quotes.ite
  · exact fun _ => .before steady_advance fun _ => hmachine (.braced quotes_transitionItem)
  intro _
  apply Quotes.ite
  · exact fun _ => hmachine (quotes_addTransition machine)
  intro _
  apply Quotes.ite
  · exact fun _ => hnode (quotes_property node)
  · exact fun _ => .skipped rfl

theorem quotes_machineRest (node : Node) (keyword : Token) :
    Quotes source node.rawBodies (machineRest held node keyword) Node.rawBodies := by
  have hempty (node : Node) : draftBodies StateMachine.rawBodies (node, .empty) =
      node.rawBodies := List.append_nil _
  apply (quotes_elementName node keyword.line).bind
  intro node
  have hbody : Quotes source node.rawBodies (machineBody held node)
      (draftBodies StateMachine.rawBodies) := by
    apply Quotes.before (resting_check .leftBrace).steady
    intro _
    apply Quotes.ite
    · intro _
      rw [← hempty]
      exact .braced (quotes_machineItem hheld)
    · exact fun _ => .skipped (hempty node)
  apply hbody.bind
  intro found
  have hkind : Quotes source (draftBodies StateMachine.rawBodies found)
      (pure { found.1 with kind := .stateMachine found.2 }) Node.rawBodies :=
    .pure (found.1.rawBodies_withKind (.stateMachine found.2))
  exact .ite (fun _ => .before (resting_report _).steady fun _ => hkind) fun _ => hkind

theorem quotes_stateMachine : Quotes source [] (stateMachine held) Node.rawBodies := by
  apply Quotes.before resting_current.steady
  intro keyword
  apply Quotes.before steady_advance
  intro _
  apply Quotes.before (resting_use .stateMachines).steady
  intro _
  exact quotes_opened (machineRest held · keyword) rfl
    (quotes_machineRest hheld (.ofKind (.stateMachine .empty) default) keyword)

/-! ## Every element -/

theorem quotes_elementWith : Quotes source [] (elementWith held) Node.rawBodies := by
  apply Quotes.before resting_current.steady
  intro token
  apply Quotes.before (resting_peekKind 1).steady
  intro next
  apply Quotes.ite
  · exact fun _ => quotes_exported hheld
  intro _
  apply Quotes.ite
  · exact fun _ => quotes_function
  intro _
  apply Quotes.ite
  · exact fun _ => quotes_logicElement hheld
  intro _
  apply Quotes.ite
  · exact fun _ => quotes_stateMachine hheld
  intro _
  apply Quotes.ite
  · exact fun _ => .before (resting_use .templates).steady fun _ =>
      quotes_genericElement hheld rfl
  intro _
  apply Quotes.ite
  · exact fun _ => .before (resting_use .environment).steady fun _ =>
      quotes_genericElement hheld rfl
  intro _
  apply Quotes.ite
  · exact fun _ => quotes_genericElement hheld rfl
  · exact fun _ => .before (resting_checkKeyword token).steady fun _ =>
      quotes_genericElement hheld rfl

end

end Parser
end SceneLang
