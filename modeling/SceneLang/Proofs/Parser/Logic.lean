import SceneLang.Proofs.Parser.Elements

/-!
# Logic and state machines keep the cursor going forward

Their blocks hold directives besides items of their own.  With them every element goes
forward, whichever word it starts with.
-/

namespace SceneLang
namespace Parser

variable {bound depth : Nat} {context : Context} {state : State}

/-! ## Blocks of logic -/

theorem reading_function : Reading (· ≠ .eof) bound depth function := by
  apply resting_startPosition.reading
  intro start
  apply reading_advance.bind
  intro _
  apply (resting_use .logic).steady.bind
  intro _
  apply (steady_expectName _).bind
  intro found
  cases found with
  | none => exact steady_synchronize.bind fun _ => (resting_close _ start).steady
  | some name =>
      exact steady_paramList.bind fun _ => steady_blockText.bind fun _ =>
        (resting_close _ start).steady

theorem steady_logicValue : Steady bound depth logicValue :=
  steady_valueOr steady_synchronize

theorem steady_logicItem (block : LogicBlock) : Steady bound depth (logicItem block) := by
  apply resting_current.steady.bind
  intro token
  apply (resting_peekKind 1).steady.bind
  intro next
  refine Steady.ite ?_ (Steady.ite ?_ (Steady.ite ?_ (Steady.ite ?_ ?_)))
  · apply steady_advance.bind
    intro _
    apply (steady_expectName _).bind
    intro found
    cases found with
    | none => exact steady_synchronize.bind fun _ => .pure block
    | some name => exact steady_paramList.bind fun _ => steady_blockText.bind fun _ => .pure _
  · apply steady_advance.bind
    intro _
    apply (steady_expectName _).bind
    intro found
    cases found with
    | none => exact steady_synchronize.bind fun _ => .pure block
    | some name =>
        apply resting_currentKind.steady.bind
        intro kind
        apply Steady.ite
        · exact steady_advance.bind fun _ => steady_logicValue.bind fun _ => .pure _
        · exact (resting_unexpected _).steady.bind fun _ => steady_logicValue.bind fun _ => .pure _
  · exact steady_advance.bind fun _ => steady_advance.bind fun _ =>
      steady_logicValue.bind fun _ => .pure _
  · apply steady_advance.bind
    intro _
    apply steady_paramList.bind
    intro _
    exact steady_blockText.bind fun _ => Steady.ite (.pure _) (.pure _)
  · exact (resting_unexpected _).steady.bind fun _ => steady_synchronize.bind fun _ => .pure block

/-! ## State machines -/

theorem steady_stateItem (machine : MachineState) : Steady bound depth (stateItem machine) := by
  apply resting_current.steady.bind
  intro token
  apply (resting_peekKind 1).steady.bind
  intro next
  refine Steady.ite ?_ (Steady.ite ?_ (Steady.ite ?_ ?_))
  · exact steady_advance.bind fun _ => steady_captureBlock.bind fun _ => .pure _
  · exact steady_advance.bind fun _ => steady_captureBlock.bind fun _ => .pure _
  · exact steady_advance.bind fun _ => steady_advance.bind fun _ =>
      steady_logicValue.bind fun _ => .pure _
  · exact (resting_unexpected _).steady.bind fun _ => steady_synchronize.bind fun _ => .pure _

theorem steady_machineState : Steady bound depth machineState := by
  apply (steady_expectName _).bind
  intro found
  cases found with
  | none => exact .pure none
  | some name =>
      apply (resting_check .leftBrace).steady.bind
      intro _
      refine Steady.ite ?_ (.pure _)
      exact (Steady.braced steady_stateItem).bind fun _ => .pure _

theorem steady_transition : Steady bound depth transition := by
  apply (steady_expectName _).bind
  intro found
  cases found with
  | none => exact .pure none
  | some source =>
      apply (steady_eat .arrow).bind
      intro _
      apply Steady.ite
      · apply (steady_expectName _).bind
        intro found
        cases found with
        | none => exact steady_synchronize.bind fun _ => .pure none
        | some target =>
            apply (steady_eat .colon).bind
            intro _
            refine Steady.ite ?_ (.pure _)
            exact (steady_expectName _).bind fun _ => .pure _
      · exact (resting_unexpected _).steady.bind fun _ => steady_synchronize.bind fun _ =>
          .pure none

theorem steady_addTransition (machine : StateMachine) :
    Steady bound depth (addTransition machine) := by
  apply steady_transition.bind
  intro found
  cases found with
  | none => exact .pure machine
  | some found => exact .pure _

theorem steady_initialName (machine : StateMachine) (keyword : Token) :
    Steady bound depth (initialName machine keyword) := by
  apply (steady_expectName _).bind
  intro found
  cases found with
  | none => exact steady_synchronize.bind fun _ => .pure machine
  | some name =>
      exact Steady.ite ((resting_report _).steady.bind fun _ => .pure machine) (.pure _)

theorem steady_initialState (machine : StateMachine) :
    Steady bound depth (initialState machine) := by
  apply resting_current.steady.bind
  intro keyword
  apply steady_advance.bind
  intro _
  apply resting_currentKind.steady.bind
  intro kind
  apply Steady.ite
  · exact steady_advance.bind fun _ => steady_initialName machine keyword
  · exact (resting_report _).steady.bind fun _ => steady_initialName machine keyword

theorem steady_transitionItem (machine : StateMachine) :
    Steady bound depth (transitionItem machine) := by
  apply resting_currentKind.steady.bind
  intro kind
  apply Steady.ite (steady_addTransition machine)
  exact (resting_unexpected _).steady.bind fun _ => steady_synchronize.bind fun _ => .pure machine

section

variable {held : Held} (hheld : Forward bound held)
include hheld

theorem steady_logicTurn (found : Node × LogicBlock) :
    Steady bound depth (logicTurn held found) := by
  obtain ⟨node, block⟩ := found
  intro context state hwithin
  rw [logicTurn, returns_bind, returns_currentKind hwithin.ended]
  split
  next => exact ((steady_logicItem block).bind fun _ => .pure _) context state hwithin
  next hat =>
    exact ((reading_attachDirective hheld true node).bind fun _ => .pure _).steadyAt hwithin hat
  next =>
    exact ((resting_unexpected _).steady.bind fun _ => steady_synchronize.bind fun _ =>
      .pure (node, block)) context state hwithin

theorem steady_logicRest (node : Node) (headLine : Nat) :
    Steady bound depth (logicRest held node headLine) := by
  apply (steady_elementName node headLine).bind
  intro node
  apply (resting_check .leftBrace).steady.bind
  intro _
  apply Steady.ite
  · exact (Steady.braced (steady_logicTurn hheld)).bind fun _ => .pure _
  · exact (resting_unexpected _).steady.bind fun _ => steady_synchronize.bind fun _ => .pure _

theorem reading_logicElement : Reading (· ≠ .eof) (bound + 1) depth (logicElement held) := by
  apply resting_current.reading
  intro keyword
  apply reading_advance.bind_inner
  intro _
  apply (resting_use .logic).steady.bind
  intro _
  refine (steady_deeper (steady_refuseElement _) ?_).bind fun node => (resting_close node _).steady
  exact steady_logicRest hheld _ keyword.line

theorem steady_machineItem (found : Node × StateMachine) :
    Steady bound depth (machineItem held found) := by
  obtain ⟨node, machine⟩ := found
  intro context state hwithin
  rw [machineItem, returns_bind, returns_current hwithin.ended, returns_bind,
    returns_peekKind hwithin.ended, returns_ite]
  constructor
  · intro hat
    exact ((reading_attachDirective hheld true node).bind fun _ => .pure _).steadyAt hwithin hat
  intro _
  rw [returns_ite]
  constructor
  · intro _
    exact ((steady_initialState machine).bind fun _ => .pure _) context state hwithin
  intro _
  rw [returns_ite]
  constructor
  · intro _
    refine (steady_advance.bind fun _ => steady_machineState.bind fun found => ?_)
      context state hwithin
    cases found with
    | none => exact .pure _
    | some found => exact .pure _
  intro _
  rw [returns_ite]
  constructor
  · intro _
    exact (steady_advance.bind fun _ => (Steady.braced steady_transitionItem).bind fun _ =>
      .pure _) context state hwithin
  intro _
  rw [returns_ite]
  constructor
  · intro _
    exact ((steady_addTransition machine).bind fun _ => .pure _) context state hwithin
  intro _
  rw [returns_ite]
  constructor
  · intro hword
    exact ((reading_property node).bind fun _ => .pure _).steadyAt hwithin (by simp [hword.1])
  · intro _
    exact ((resting_unexpected _).steady.bind fun _ => steady_synchronize.bind fun _ =>
      .pure (node, machine)) context state hwithin

theorem steady_machineBody (node : Node) : Steady bound depth (machineBody held node) := by
  apply (resting_check .leftBrace).steady.bind
  intro _
  apply Steady.ite
  · exact Steady.braced (steady_machineItem hheld)
  · exact (resting_unexpected _).steady.bind fun _ => steady_synchronize.bind fun _ => .pure _

theorem steady_machineRest (node : Node) (keyword : Token) :
    Steady bound depth (machineRest held node keyword) := by
  apply (steady_elementName node keyword.line).bind
  intro node
  apply (steady_machineBody hheld node).bind
  intro found
  refine Steady.ite ?_ (.pure _)
  exact (resting_report _).steady.bind fun _ => .pure _

theorem reading_stateMachine : Reading (· ≠ .eof) (bound + 1) depth (stateMachine held) := by
  apply resting_current.reading
  intro keyword
  apply reading_advance.bind_inner
  intro _
  apply (resting_use .stateMachines).steady.bind
  intro _
  refine (steady_deeper (steady_refuseElement _) ?_).bind fun node => (resting_close node _).steady
  exact steady_machineRest hheld _ keyword

/-! ## Elements -/

omit hheld in
theorem resting_checkKeyword (keyword : Token) : Resting bound depth (checkKeyword keyword) := by
  apply Resting.ite (.pure ())
  exact resting_read.bind fun _ => resting_report _

/-- A word that starts an element is read before what the element holds. -/
theorem reading_elementWith :
    Reading (· = .identifier) (bound + 1) depth (elementWith held) := by
  intro context state hwithin hword
  have heof : state.token.kind ≠ .eof := by simp [hword]
  have hgeneric (kind : NodeKind) :
      Reading (· ≠ .eof) (bound + 1) depth (genericElement held kind) :=
    reading_genericElement hheld kind
  rw [elementWith, returns_bind, returns_current hwithin.ended, returns_bind,
    returns_peekKind hwithin.ended, returns_ite]
  constructor
  · intro hexport
    simp only [Bool.and_eq_true, decide_eq_true_eq] at hexport
    exact returns_exported hheld hwithin hword hexport.2
  intro _
  rw [returns_ite]
  constructor
  · intro _
    exact reading_function context state hwithin heof
  intro _
  rw [returns_ite]
  constructor
  · intro _
    exact reading_logicElement hheld context state hwithin heof
  intro _
  rw [returns_ite]
  constructor
  · intro _
    exact reading_stateMachine hheld context state hwithin heof
  intro _
  rw [returns_ite]
  constructor
  · intro _
    exact ((resting_use .templates).reading fun _ => hgeneric _) context state hwithin heof
  intro _
  rw [returns_ite]
  constructor
  · intro _
    exact ((resting_use .environment).reading fun _ => hgeneric _) context state hwithin heof
  intro _
  rw [returns_ite]
  constructor
  · intro _
    exact hgeneric _ context state hwithin heof
  intro _
  exact ((resting_checkKeyword _).reading fun _ => hgeneric _) context state hwithin heof

end

end Parser
end SceneLang
