import SceneLang.Proofs.Inventory.Elements

/-!
# The constructs of logic and state machines

While a block of logic or a state machine is read, it is carried beside the node that it will be the
kind of.  A state machine that is left without an initial state is reported when it is put in.
-/

namespace SceneLang

open Value (constructs)

namespace Parser

variable {options : ParseOptions}

/-! ## Blocks of logic -/

/-- A value is put under a name into a table, with nothing else in it to be found. -/
theorem accounts_logicValue {α : Type} {parts : α → List Construct} (put : Table Value → α)
    (hput : ∀ table, parts (put table) = table.gather constructs) (table : Table Value)
    (key : String) :
    Accounts options (parts (put table)) (do return put (table.insert key (← logicValue)))
      parts := by
  apply Accounts.read (accounts_valueOr steady_synchronize)
  intro value
  apply Accounts.pure
  rw [hput, hput]
  exact Table.flatMap_insert_subset (fun entry => entry.2.constructs) key value table

theorem accounts_logicItem (block : LogicBlock) :
    Accounts options block.constructs (logicItem block) LogicBlock.constructs := by
  have hvalue (key : String) : Accounts options block.constructs
      (do return { block with values := block.values.insert key (← logicValue) })
      LogicBlock.constructs :=
    accounts_logicValue (fun values => { block with values := values }) (fun _ => rfl) _ key
  apply Accounts.before resting_current.steady
  intro token
  apply Accounts.before (resting_peekKind 1).steady
  intro next
  apply Accounts.ite
  · intro _
    apply Accounts.before steady_advance
    intro _
    apply Accounts.before (steady_expectName _)
    intro found
    cases found with
    | none => exact .before steady_synchronize fun _ => .give rfl
    | some name =>
        exact .before steady_paramList fun _ => .before steady_blockText fun _ => .give rfl
  intro _
  apply Accounts.ite
  · intro _
    apply Accounts.before steady_advance
    intro _
    apply Accounts.before (steady_expectName _)
    intro found
    cases found with
    | none => exact .before steady_synchronize fun _ => .give rfl
    | some name =>
        apply Accounts.before resting_currentKind.steady
        exact fun _ => .ite (fun _ => .before steady_advance fun _ => hvalue name) fun _ =>
          .before (resting_unexpected _).steady fun _ => hvalue name
  intro _
  apply Accounts.ite
  · exact fun _ => .before steady_advance fun _ => .before steady_advance fun _ => hvalue token.text
  intro _
  apply Accounts.ite
  · exact fun _ => .before steady_advance fun _ => .before steady_paramList fun _ =>
      .before steady_blockText fun _ => .ite (fun _ => .give rfl) fun _ => .give rfl
  · exact fun _ => .skipped rfl

/-! ## States and transitions -/

theorem accounts_stateItem (state : MachineState) :
    Accounts options state.constructs (stateItem state) MachineState.constructs := by
  apply Accounts.before resting_current.steady
  intro token
  apply Accounts.before (resting_peekKind 1).steady
  intro next
  apply Accounts.ite
  · exact fun _ => .before steady_advance fun _ => .before steady_captureBlock fun _ => .give rfl
  intro _
  apply Accounts.ite
  · exact fun _ => .before steady_advance fun _ => .before steady_captureBlock fun _ => .give rfl
  intro _
  apply Accounts.ite
  · exact fun _ => .before steady_advance fun _ => .before steady_advance fun _ =>
      accounts_logicValue (fun properties => { state with properties := properties })
        (fun _ => rfl) _ token.text
  · exact fun _ => .skipped rfl

theorem accounts_machineState :
    Accounts options [] machineState (optionConstructs MachineState.constructs) := by
  apply Accounts.before (steady_expectName _)
  intro found
  cases found with
  | none => exact .give rfl
  | some name =>
      have hloop : Accounts options (MachineState.mk name none none []).constructs
          (braced ⟨name, none, none, []⟩ stateItem) MachineState.constructs :=
        .braced accounts_stateItem
      apply Accounts.before (resting_check .leftBrace).steady
      exact fun _ => .ite (fun _ => hloop.bind fun state => .give (optionConstructs_some _ state))
        fun _ => .give rfl

theorem accounts_addTransition (machine : StateMachine) :
    Accounts options machine.constructs (addTransition machine) StateMachine.constructs := by
  apply Accounts.before steady_transition
  intro found
  cases found with
  | none => exact .give rfl
  | some transition => exact .give rfl

theorem accounts_initialState (machine : StateMachine) :
    Accounts options machine.constructs (initialState machine) StateMachine.constructs := by
  have hname (keyword : Token) : Accounts options machine.constructs (initialName machine keyword)
      StateMachine.constructs := by
    apply Accounts.before (steady_expectName _)
    intro found
    cases found with
    | none => exact .before steady_synchronize fun _ => .give rfl
    | some name =>
        exact .ite (fun _ => .before (resting_report _).steady fun _ => .give rfl) fun _ =>
          .give rfl
  apply Accounts.before resting_current.steady
  intro keyword
  apply Accounts.before steady_advance
  intro _
  apply Accounts.before resting_currentKind.steady
  exact fun _ => .ite (fun _ => .before steady_advance fun _ => hname keyword) fun _ =>
    .before (resting_report _).steady fun _ => hname keyword

theorem accounts_transitionItem (machine : StateMachine) :
    Accounts options machine.constructs (transitionItem machine) StateMachine.constructs := by
  apply Accounts.before resting_currentKind.steady
  exact fun _ => .ite (fun _ => accounts_addTransition machine) fun _ => .skipped rfl

/-! ## A node and what it is to be -/

/-- A node and, beside it, what is read of its kind. -/
def draftConstructs {α : Type} (parts : α → List Construct) (found : Node × α) : List Construct :=
  found.1.draft NodeKind.unknown ++ parts found.2

/-- The kind of a node is put in. -/
theorem constructs_withKind (node : Node) (kind : NodeKind) :
    ({ node with kind := kind }).constructs =
      kind.constructs node.name ++ node.draft NodeKind.unknown :=
  Node.constructs_eq _

section

variable {held : Held} (hheld : HeldAccounts options held)
include hheld

theorem accounts_logicTurn (found : Node × LogicBlock) :
    Accounts options (draftConstructs LogicBlock.constructs found) (logicTurn held found)
      (draftConstructs LogicBlock.constructs) := by
  obtain ⟨node, block⟩ := found
  apply Accounts.before resting_currentKind.steady
  intro kind
  split
  · exact .bind ((accounts_logicItem block).behind _) fun _ => .give rfl
  · exact .bind ((accounts_attachDirective hheld true node).ahead _) fun _ => .give rfl
  · exact .skipped rfl

theorem accounts_logicRest (node : Node) (headLine : Nat) :
    Accounts options (.logic :: node.draft NodeKind.unknown) (logicRest held node headLine)
      Node.constructs := by
  have hkind (node : Node) (block : LogicBlock) :
      Accounts options (.logic :: draftConstructs LogicBlock.constructs (node, block))
        (pure { node with kind := .logic block }) Node.constructs := by
    apply Accounts.pure
    rw [constructs_withKind, draftConstructs]
    simp [NodeKind.constructs]
  apply Accounts.bind ((accounts_elementName node headLine).behind [.logic])
  intro node
  apply Accounts.before (resting_check .leftBrace).steady
  intro _
  apply Accounts.ite
  · intro _
    have hloop : Accounts options (draftConstructs LogicBlock.constructs (node, .empty))
        (braced (node, .empty) (logicTurn held)) (draftConstructs LogicBlock.constructs) :=
      .braced (accounts_logicTurn hheld)
    rw [draftConstructs, show LogicBlock.empty.constructs = [] from rfl, List.append_nil] at hloop
    exact .bind (hloop.behind [.logic]) fun found => hkind found.1 found.2
  · intro _
    apply Accounts.before (resting_unexpected _).steady
    intro _
    apply Accounts.before steady_synchronize
    intro _
    have hempty := hkind node .empty
    rwa [draftConstructs, show LogicBlock.empty.constructs = [] from rfl, List.append_nil] at hempty

theorem accounts_logicElement : Accounts options [] (logicElement held) Node.constructs := by
  apply Accounts.before resting_current.steady
  intro keyword
  apply Accounts.before steady_advance
  intro _
  apply Accounts.bind (accounts_use .logic rfl rfl)
  intro _
  exact accounts_opened (logicRest held · keyword.line) (List.subset_append_left _ _)
    (accounts_logicRest hheld (.ofKind (.logic .empty) default) keyword.line)

theorem accounts_machineItem (found : Node × StateMachine) :
    Accounts options (draftConstructs StateMachine.constructs found) (machineItem held found)
      (draftConstructs StateMachine.constructs) := by
  obtain ⟨node, machine⟩ := found
  have hmachine {p : Parser StateMachine}
      (hp : Accounts options machine.constructs p StateMachine.constructs) :
      Accounts options (draftConstructs StateMachine.constructs (node, machine))
        (do return (node, ← p)) (draftConstructs StateMachine.constructs) :=
    .bind (hp.behind _) fun _ => .give rfl
  have hnode {p : Parser Node} (hp : Accounts options (node.draft NodeKind.unknown) p
      (Node.draft NodeKind.unknown)) :
      Accounts options (draftConstructs StateMachine.constructs (node, machine))
        (do return (← p, machine)) (draftConstructs StateMachine.constructs) :=
    .bind (hp.ahead _) fun _ => .give rfl
  apply Accounts.before resting_current.steady
  intro token
  apply Accounts.before (resting_peekKind 1).steady
  intro next
  apply Accounts.ite
  · exact fun _ => hnode (accounts_attachDirective hheld true node)
  intro _
  apply Accounts.ite
  · exact fun _ => hmachine (accounts_initialState machine)
  intro _
  apply Accounts.ite
  · intro _
    apply Accounts.before steady_advance
    intro _
    apply Accounts.read accounts_machineState
    intro found
    cases found with
    | none => exact .give (List.append_nil _).symm
    | some state =>
        apply Accounts.give
        simp [draftConstructs, optionConstructs_some, StateMachine.constructs]
  intro _
  apply Accounts.ite
  · exact fun _ => .before steady_advance fun _ => hmachine (.braced accounts_transitionItem)
  intro _
  apply Accounts.ite
  · exact fun _ => hmachine (accounts_addTransition machine)
  intro _
  apply Accounts.ite
  · exact fun _ => hnode (accounts_property node)
  · exact fun _ => .skipped rfl

/-- A machine without an initial state is reported before it is put in. -/
theorem accounts_machineRest (node : Node) (keyword : Token) :
    Accounts options (.stateMachine :: node.draft NodeKind.unknown) (machineRest held node keyword)
      Node.constructs := by
  apply Accounts.bind ((accounts_elementName node keyword.line).behind [.stateMachine])
  intro node
  have hempty : draftConstructs StateMachine.constructs (node, .empty) =
      node.draft NodeKind.unknown := List.append_nil _
  have hbody : Accounts options (node.draft NodeKind.unknown) (machineBody held node)
      (draftConstructs StateMachine.constructs) := by
    apply Accounts.before (resting_check .leftBrace).steady
    intro _
    apply Accounts.ite
    · intro _
      rw [← hempty]
      exact .braced (accounts_machineItem hheld)
    · exact fun _ => .skipped hempty
  apply Accounts.bind (hbody.behind [.stateMachine])
  intro found
  apply Accounts.ite
  · intro hnone
    rw [Option.isNone_iff_eq_none] at hnone
    apply Accounts.read (accounts_report rfl)
    intro _
    apply Accounts.pure
    rw [constructs_withKind]
    intro construct hmem
    simp [NodeKind.constructs, draftConstructs, Construct.faults, hnone] at hmem ⊢
    grind
  · intro hsome
    rw [Bool.not_eq_true, Option.isNone_eq_false_iff] at hsome
    apply Accounts.pure
    rw [constructs_withKind]
    simp [NodeKind.constructs, draftConstructs, hsome]

theorem accounts_stateMachine : Accounts options [] (stateMachine held) Node.constructs := by
  apply Accounts.before resting_current.steady
  intro keyword
  apply Accounts.before steady_advance
  intro _
  apply Accounts.bind (accounts_use .stateMachine rfl rfl)
  intro _
  apply accounts_opened (machineRest held · keyword) (by decide)
  exact accounts_machineRest hheld (.ofKind (.stateMachine .empty) default) keyword

/-! ## Every element -/

theorem accounts_elementWith : Accounts options [] (elementWith held) Node.constructs := by
  apply Accounts.before resting_current.steady
  intro token
  apply Accounts.before (resting_peekKind 1).steady
  intro next
  apply Accounts.ite
  · exact fun _ => accounts_exported hheld
  intro _
  apply Accounts.ite
  · exact fun _ => accounts_function
  intro _
  apply Accounts.ite
  · exact fun _ => accounts_logicElement hheld
  intro _
  apply Accounts.ite
  · exact fun _ => accounts_stateMachine hheld
  intro _
  apply Accounts.ite
  · exact fun _ => .bind (accounts_use .template rfl rfl) fun _ =>
      accounts_genericElement hheld (.template [])
  intro _
  apply Accounts.ite
  · exact fun _ => .bind (accounts_use .environment rfl rfl) fun _ =>
      accounts_genericElement hheld .environment
  intro _
  apply Accounts.ite
  · exact fun _ => accounts_genericElement hheld (.composition token.text)
  · exact fun _ => .before (resting_checkKeyword token).steady fun _ =>
      accounts_genericElement hheld (.element token.text none)

end

end Parser

end SceneLang
