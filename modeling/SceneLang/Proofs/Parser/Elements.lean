import SceneLang.Proofs.Parser.Nesting

/-!
# Elements keep the cursor going forward

An element and a directive read a token before they turn to what they hold.  What they hold
is given as parsers that go forward as long as there are at most so many tokens ahead; then
an element with one token more goes forward too.
-/

namespace SceneLang
namespace Parser

variable {α β : Type} {bound depth : Nat} {context : Context} {state : State}

/-- What is held goes forward, whatever the nesting, with at most `bound` tokens ahead. -/
structure Forward (bound : Nat) (held : Held) : Prop where
  element : ∀ depth, Reading (· = .identifier) bound depth held.element
  directive : ∀ depth allowBody, Reading (· = .at) bound depth (held.directive allowBody)
  conditional : ∀ depth, Steady bound depth held.conditional

/-! ## Nodes and properties -/

theorem resting_attach (node : Node) (placed : PlacedDirective) :
    Resting bound depth (attach node placed) := by
  unfold attach
  split
  · refine Resting.ite ?_ (.pure _)
    exact (resting_report _).bind fun _ => .pure _
  · refine Resting.ite ?_ (.pure _)
    exact (resting_report _).bind fun _ => .pure _
  · exact .pure _

theorem resting_close (node : Node) (start : Position) :
    Resting bound depth (close node start) :=
  (resting_locationFrom start).bind fun _ => .pure _

theorem resting_checkGeometry (key : Token) (value : Value) (place : Token) :
    Resting bound depth (checkGeometry key value place) := by
  unfold checkGeometry
  split
  · exact Resting.ite (resting_report _) (.pure ())
  · exact .pure ()

theorem resting_checkProperty (key : Token) (value : Value) (place : Token) :
    Resting bound depth (checkProperty key value place) := by
  unfold checkProperty
  dsimp only
  split
  · exact (resting_report _).bind fun _ => resting_checkGeometry key value place
  · exact resting_checkGeometry key value place

theorem reading_property (node : Node) : Reading (· ≠ .eof) bound depth (property node) := by
  apply resting_current.reading
  intro key
  apply reading_advance.bind
  intro _
  apply resting_currentKind.steady.bind
  intro kind
  have hrest : Steady bound depth (do
      let place ← current
      let read ← valueOr synchronize
      checkProperty key read place
      return { node with properties := node.properties.insert key.text read }) :=
    resting_current.steady.bind fun _ => (steady_valueOr steady_synchronize).bind fun _ =>
      (resting_checkProperty _ _ _).steady.bind fun _ => .pure _
  apply Steady.ite
  · exact steady_advance.bind fun _ => hrest
  · exact (resting_report _).steady.bind fun _ => hrest

theorem resting_propertyAhead : Resting bound depth propertyAhead := by
  apply resting_current.bind
  intro token
  apply (resting_peek 1).bind
  intro next
  refine Resting.ite (.pure true) (Resting.ite (.pure false) ?_)
  exact (resting_peekKind 2).bind fun _ => Resting.ite (.pure false) (.pure _)

section

variable {held : Held} (hheld : Forward bound held)
include hheld

theorem reading_attachDirective (allowBody : Bool) (node : Node) :
    Reading (· = .at) bound depth (attachDirective held allowBody node) := by
  apply (hheld.directive depth allowBody).bind
  intro found
  cases found with
  | none => exact .pure node
  | some placed => exact (resting_attach node placed).steady

theorem steady_bodyItem (node : Node) : Steady bound depth (bodyItem held node) := by
  intro context state hwithin
  rw [bodyItem, returns_bind, returns_currentKind hwithin.ended]
  split
  next hat =>
    exact (reading_attachDirective hheld true node).steadyAt hwithin hat
  next =>
    exact (steady_advance.bind fun _ => (resting_use .spread).steady.bind fun _ =>
      (steady_valueOr steady_synchronize).bind fun _ => .pure _) context state hwithin
  next hname =>
    have helement : Reading (· = .identifier) bound depth (do
        if ← propertyAhead then property node
        else
          let child ← held.element
          return { node with children := node.children ++ [child] }) := by
      apply resting_propertyAhead.reading
      intro ahead
      apply Reading.ite
      · exact (reading_property node).weaken (by rintro _ rfl; simp)
      · exact (hheld.element depth).bind fun _ => .pure _
    exact helement.steadyAt hwithin hname
  next =>
    rw [returns_bind, returns_peekKind hwithin.ended, returns_ite]
    constructor
    · intro htext
      simp only [Bool.and_eq_true, decide_eq_true_eq] at htext
      exact (reading_property node).steadyAt hwithin (by simp [htext.1])
    · intro _
      exact ((resting_unexpected _).steady.bind fun _ => steady_synchronize.bind fun _ =>
        .pure node) context state hwithin

/-! ## Bodies -/

theorem steady_indentedItem_turn (node : Node) (further : Nat) (hwithin : Within bound depth state)
    (heof : state.token.kind ≠ .eof) :
    Returns (do return ForInStep.yield (← indentedItem held node, further)) context state
      (Turn state) := by
  rw [returns_bind, indentedItem, returns_bind, returns_get, returns_bind]
  apply (steady_bodyItem hheld node context state hwithin).mono
  intro value next hkeeps
  have hnext := hwithin.keeps hkeeps
  rw [returns_bind, returns_get, returns_ite]
  constructor
  · intro hlength
    have htoken := hkeeps.moved.token_eq (Nat.le_of_eq hlength.symm)
    rw [returns_bind, returns_advance hnext.ended, returns_pure, returns_pure]
    exact hkeeps.reads (advance_reads hnext.ended (by rwa [htoken]))
  · intro hlength
    rw [returns_pure, returns_pure]
    exact ⟨hkeeps, Nat.lt_of_le_of_ne hkeeps.moved.length_le hlength⟩

theorem turning_indentedTurn (found : Node × Nat) :
    Turning bound depth (indentedTurn held found) := by
  obtain ⟨node, further⟩ := found
  intro context state hwithin
  rw [indentedTurn, returns_bind, returns_currentKind hwithin.ended]
  split
  next hkind => exact (reading_advance.bind fun _ => .pure _).turn hwithin (by simp [hkind])
  next hkind => exact (reading_advance.bind fun _ => .pure _).turn hwithin (by simp [hkind])
  next hkind =>
    have hreads := advance_reads hwithin.ended (by simp [hkind])
    rw [returns_bind, returns_advance hwithin.ended, returns_ite]
    constructor
    · intro _
      exact returns_pure.mpr hreads.toKeeps
    intro hfurther
    rw [returns_bind, returns_lower (Nat.pos_of_ne_zero hfurther), returns_pure]
    exact hreads
  next => exact returns_pure.mpr (Keeps.refl state)
  next hkind =>
    have hreads : Reading (· ≠ .eof) bound depth (do
        unexpected "in indented block"
        advance
        return ForInStep.yield (node, further)) :=
      (resting_unexpected _).reading fun _ => reading_advance.bind fun _ => .pure _
    exact hreads.turn hwithin (by simp [hkind])
  next heof _ => exact steady_indentedItem_turn hheld node further hwithin heof

theorem steady_indentedBody (node : Node) : Steady bound depth (indentedBody held node) :=
  Steady.bind (.iterate (turning_indentedTurn hheld)) fun _ => .pure _

/-! ## Heads -/

omit hheld in
theorem steady_givenName (node : Node) : Steady bound depth (givenName node) := by
  apply resting_current.steady.bind
  intro token
  split
  · exact steady_advance.bind fun _ => .pure _
  · exact (resting_reportUnterminated token).steady.bind fun _ =>
      steady_advance.bind fun _ => .pure _
  · apply (resting_peekKind 1).steady.bind
    intro _
    apply Steady.ite (.pure _)
    exact steady_advance.bind fun _ => .pure _
  · exact .pure _

omit hheld in
theorem steady_givenId (node : Node) (headLine : Nat) :
    Steady bound depth (givenId node headLine) := by
  apply resting_current.steady.bind
  intro mark
  refine Steady.ite ?_ (.pure _)
  apply steady_advance.bind
  intro _
  apply resting_current.steady.bind
  intro id
  apply Steady.ite
  · exact steady_advance.bind fun _ => .pure _
  · exact (resting_unexpected _).steady.bind fun _ => .pure _

omit hheld in
theorem steady_elementName (node : Node) (headLine : Nat) :
    Steady bound depth (elementName node headLine) := by
  apply resting_current.steady.bind
  intro token
  apply Steady.ite (.pure _)
  exact (steady_givenName node).bind fun _ => steady_givenId _ headLine

omit hheld in
theorem resting_setTemplate (node : Node) (token : Token) :
    Resting bound depth (setTemplate node token) := by
  unfold setTemplate
  split
  · exact .pure _
  · exact (resting_report _).bind fun _ => .pure _

omit hheld in
theorem steady_templateName (node : Node) : Steady bound depth (templateName node) := by
  apply resting_current.steady.bind
  intro token
  split
  · exact steady_advance.bind fun _ => (resting_setTemplate node token).steady
  · exact steady_advance.bind fun _ => (resting_setTemplate node token).steady
  · exact (resting_reportUnterminated token).steady.bind fun _ =>
      steady_advance.bind fun _ => (resting_setTemplate node token).steady
  · exact (resting_unexpected _).steady.bind fun _ => .pure _

omit hheld in
theorem steady_skipHead (headLine : Nat) : Steady bound depth (skipHead headLine) := by
  apply steady_skipUntil
  intro context state hwithin
  rw [returns_bind, returns_current hwithin.ended, returns_pure]
  exact ⟨rfl, fun heof => by simp [heof, TokenKind.endsBlock]⟩

theorem turning_headTurn (headLine : Nat) (node : Node) :
    Turning bound depth (headTurn held headLine node) := by
  intro context state hwithin
  rw [headTurn, returns_bind, returns_current hwithin.ended, returns_ite]
  constructor
  · intro _
    exact returns_pure.mpr (Keeps.refl state)
  intro _
  split
  case h_9 hat =>
    exact ((reading_attachDirective hheld false node).bind fun _ => .pure _).turn hwithin hat
  case h_10 hname =>
    rw [returns_bind, returns_peekKind hwithin.ended, returns_ite]
    constructor
    · intro _
      exact ((reading_property node).bind fun _ => .pure _).turn hwithin (by simp [hname])
    · intro _
      exact returns_pure.mpr (Keeps.refl state)
  case h_11 =>
    exact (resting_unexpected _).steady.turning (fun _ => (steady_skipHead headLine).turning
      fun _ => .done node) context state hwithin
  all_goals exact returns_pure.mpr (Keeps.refl state)

omit hheld in
theorem stops_skipElement :
    Stops bound depth (do
      let kind ← currentKind
      return kind = .leftBrace || kind.endsBlock ||
        ((← get).braceDepth = 0 && kind.isLayout)) := by
  intro context state hwithin
  rw [returns_bind, returns_currentKind hwithin.ended, returns_bind, returns_get, returns_pure]
  exact ⟨rfl, fun heof => by simp [heof, TokenKind.endsBlock]⟩

omit hheld in
theorem steady_skipElement : Steady bound depth skipElement := by
  apply (steady_skipUntil stops_skipElement).bind
  intro _
  apply (resting_check .leftBrace).steady.bind
  intro _
  refine Steady.ite ?_ (.pure ())
  exact steady_skipBalanced.bind fun _ => .pure ()

omit hheld in
theorem steady_refuseElement (node : Node) : Steady bound depth (refuseElement node) :=
  steady_skipElement.bind fun _ => .pure node

/-! ## Elements -/

omit hheld in
theorem steady_templateParams (node : Node) : Steady bound depth (templateParams node) := by
  unfold templateParams
  split
  · apply (resting_check .leftParen).steady.bind
    intro _
    refine Steady.ite ?_ (.pure _)
    exact steady_paramList.bind fun _ => .pure _
  · exact .pure _

omit hheld in
theorem steady_elementTemplate (node : Node) (headLine : Nat) :
    Steady bound depth (elementTemplate node headLine) := by
  apply resting_current.steady.bind
  intro mark
  refine Steady.ite ?_ (.pure _)
  exact steady_advance.bind fun _ => steady_templateName node

theorem steady_elementBody (node : Node) : Steady bound depth (elementBody held node) := by
  apply resting_get.steady.bind
  intro now
  apply (resting_check .newline).steady.bind
  intro _
  apply (resting_peekKind 1).steady.bind
  intro _
  apply (resting_check .leftBrace).steady.bind
  intro _
  refine Steady.ite (.braced (steady_bodyItem hheld)) (Steady.ite ?_ (.pure node))
  exact steady_advance.bind fun _ => steady_advance.bind fun _ =>
    (resting_use .indentation).steady.bind fun _ => steady_indentedBody hheld node

theorem steady_elementRest (node : Node) (headLine : Nat) :
    Steady bound depth (elementRest held node headLine) :=
  (steady_elementName node headLine).bind fun node => (steady_templateParams node).bind fun node =>
    (steady_elementTemplate node headLine).bind fun _ =>
      Steady.bind (.iterate (turning_headTurn hheld headLine)) fun node =>
        steady_elementBody hheld node

theorem reading_genericElement (kind : NodeKind) :
    Reading (· ≠ .eof) (bound + 1) depth (genericElement held kind) := by
  apply resting_current.reading
  intro keyword
  apply reading_advance.bind_inner
  intro _
  refine (steady_deeper (steady_refuseElement _) ?_).bind fun node => (resting_close node _).steady
  exact steady_elementRest hheld _ keyword.line

/-- Behind `export` there is a word for the element to read. -/
theorem returns_exported (hwithin : Within (bound + 1) depth state)
    (hword : state.token.kind = .identifier) (hnext : (state.tokenAt 1).kind = .identifier) :
    Returns (exported held) context state fun _ next => Reads state next := by
  have hreads := advance_reads hwithin.ended (by simp [hword])
  have hwithin' := hwithin.reads hreads
  rw [exported, returns_bind, startPosition, returns_bind, returns_current hwithin.ended,
    returns_pure, returns_bind, returns_advance hwithin.ended, returns_bind]
  refine (returns_deeper hwithin' (steady_refuseElement _) ?_).mono fun node next hkeeps => ?_
  · intro entered hentered htoken
    have hword' : entered.token.kind = .identifier := by
      rw [htoken, advance_token hwithin.ended hword]
      exact hnext
    rw [returns_bind]
    apply (hheld.element _ context entered hentered hword').mono
    intro node next hnode
    exact returns_pure.mpr hnode.toKeeps
  · exact (resting_close node _).steady.after_reads (hwithin'.keeps hkeeps) (hreads.keeps hkeeps)

end

end Parser
end SceneLang
