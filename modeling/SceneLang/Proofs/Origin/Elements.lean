import SceneLang.Proofs.Origin.Templates
import SceneLang.Proofs.Origin.Values

/-!
# What is read of elements

Elements report what is about their keywords, names, properties and directives, and only the step
that reads a template looks for what its name stands behind.  The parsers of what they hold are
given, with the same said of them.
-/

namespace SceneLang

/-- The directive stands at its mark and name, and its templates are named in the tokens. -/
structure PlacedDirective.Grounded (tokens : List Token) (placed : PlacedDirective) : Prop where
  site : Parser.Site tokens placed.span placed.position
  templated : placed.directive.Templated tokens

namespace Parser

variable {source : List Char} {tokens : List Token} {node : Node}

/-- What is held reports what is about the tokens, and what it reads is grounded in them. -/
structure FaithfulHeld (source : List Char) (tokens : List Token) (held : Held) : Prop where
  element : Tells source tokens held.element (Node.Templated tokens)
  directive : ∀ allowBody, Tells source tokens (held.directive allowBody) fun found =>
    ∀ placed ∈ found, placed.Grounded tokens
  conditional : Tells source tokens held.conditional (Directive.Templated tokens)

/-! ## Properties and directives -/

theorem tells_attach {placed : PlacedDirective} (h : node.Templated tokens)
    (hplaced : placed.Grounded tokens) :
    Tells source tokens (attach node placed) (Node.Templated tokens) := by
  have hattach : Tells source tokens (pure (node.attach placed.directive))
      (Node.Templated tokens) :=
    .pure (h.attach hplaced.templated)
  have hreport (message : String) : Tells source tokens (do
      report (.warning .duplicateName placed.span placed.position message)
      return node.attach placed.directive) (Node.Templated tokens) :=
    (faithful_report (.plain .warning .duplicateName message hplaced.site)).bind fun _ => hattach
  unfold attach
  split
  · exact .ite (hreport _) hattach
  · exact .ite (hreport _) hattach
  · exact hattach

theorem tells_close (h : node.Templated tokens) (start : Position) :
    Tells source tokens (close node start) (Node.Templated tokens) :=
  (faithful_locationFrom start).bind fun _ => .pure (h.of_same rfl rfl rfl)

theorem faithful_checkProperty {key place : Token} (value : Value) (hkey : key ∈ tokens)
    (hplace : place ∈ tokens) : Faithful source tokens (checkProperty key value place) := by
  have hgeometry : Faithful source tokens (checkGeometry key value place) := by
    unfold checkGeometry
    split
    · exact .ite (faithful_report (.geometry _ hplace)) (.pure trivial)
    · exact .pure trivial
  unfold checkProperty
  dsimp only
  split
  next hd => exact (faithful_report (.misspelled hkey hd)).bind fun _ => hgeometry
  next => exact hgeometry

theorem tells_property (h : node.Templated tokens) :
    Tells source tokens (property node) (Node.Templated tokens) := by
  apply tells_current.bind
  intro key hkey
  have hrest : Tells source tokens (do
      let place ← current
      let read ← valueOr synchronize
      checkProperty key read place
      return { node with properties := node.properties.insert key.text read })
      (Node.Templated tokens) :=
    tells_current.bind fun _ hplace => (faithful_valueOr faithful_synchronize).bind fun read =>
      (faithful_checkProperty read hkey hplace).bind fun _ => .pure (h.of_same rfl rfl rfl)
  apply faithful_advance.bind
  intro _
  apply faithful_currentKind.bind
  intro kind
  apply Tells.ite
  · exact faithful_advance.bind fun _ => hrest
  · exact (faithful_report (.missingColon key.text hkey)).bind fun _ => hrest

theorem faithful_propertyAhead : Faithful source tokens propertyAhead := by
  apply tells_current.bind
  intro token _
  apply (tells_peek 1).bind
  intro next _
  refine .ite (.pure trivial) (.ite (.pure trivial) ?_)
  exact (faithful_peekKind 2).bind fun _ => .ite (.pure trivial) (.pure trivial)

section

variable {held : Held} (hheld : FaithfulHeld source tokens held)
include hheld

theorem tells_attachDirective (allowBody : Bool) (h : node.Templated tokens) :
    Tells source tokens (attachDirective held allowBody node) (Node.Templated tokens) := by
  apply (hheld.directive allowBody).bind
  intro found hfound
  cases found with
  | none => exact .pure h
  | some placed => exact tells_attach h (hfound placed rfl)

/-! ## Bodies -/

theorem tells_bodyItem (h : node.Templated tokens) :
    Tells source tokens (bodyItem held node) (Node.Templated tokens) := by
  apply faithful_currentKind.bind
  intro kind
  split
  · exact tells_attachDirective hheld true h
  · exact faithful_advance.bind fun _ => (faithful_use .spread).bind fun _ =>
      (faithful_valueOr faithful_synchronize).bind fun _ => .pure (h.of_same rfl rfl rfl)
  · apply faithful_propertyAhead.bind
    intro _
    exact .ite (tells_property h) (hheld.element.bind fun _ hchild => .pure (h.addChild hchild))
  · apply (faithful_peekKind 1).bind
    intro _
    refine .ite (tells_property h) ((faithful_unexpected _).bind fun _ => ?_)
    exact faithful_synchronize.bind fun _ => .pure h

theorem tells_indentedBody (h : node.Templated tokens) :
    Tells source tokens (indentedBody held node) (Node.Templated tokens) := by
  have hitem {node : Node} (h : node.Templated tokens) :
      Tells source tokens (indentedItem held node) (Node.Templated tokens) :=
    tells_get.bind fun _ _ => (tells_bodyItem hheld h).bind fun _ hvalue =>
      tells_get.bind fun _ _ => .ite (faithful_advance.bind fun _ => .pure hvalue) (.pure hvalue)
  have hloop : Tells source tokens (iterate (node, 0) (indentedTurn held)) fun found =>
      found.1.Templated tokens := by
    refine .iterate h fun found h => ?_
    obtain ⟨node, further⟩ := found
    apply faithful_currentKind.bind
    intro kind
    split
    · exact faithful_advance.bind fun _ => .pure h
    · exact faithful_advance.bind fun _ => .pure h
    · exact faithful_advance.bind fun _ => .ite (.pure h)
        ((faithful_lower further).bind fun _ => .pure h)
    · exact .pure h
    · exact (faithful_unexpected _).bind fun _ => faithful_advance.bind fun _ => .pure h
    · exact (hitem h).bind fun _ hvalue => .pure hvalue
  exact hloop.bind fun _ hfound => .pure hfound

/-! ## Heads of elements -/

omit hheld in
theorem tells_givenName (h : node.Templated tokens) :
    Tells source tokens (givenName node) (Node.Templated tokens) := by
  have hnamed (token : Token) : Node.Templated tokens { node with name := some token.text } :=
    h.of_same rfl rfl rfl
  apply tells_current.bind
  intro token hmem
  split
  · exact faithful_advance.bind fun _ => .pure (hnamed token)
  · exact (faithful_reportUnterminated hmem).bind fun _ => faithful_advance.bind fun _ =>
      .pure (hnamed token)
  · apply (faithful_peekKind 1).bind
    intro _
    exact .ite (.pure h) (faithful_advance.bind fun _ => .pure (hnamed token))
  · exact .pure h

omit hheld in
theorem tells_elementName (h : node.Templated tokens) (headLine : Nat) :
    Tells source tokens (elementName node headLine) (Node.Templated tokens) := by
  have hid (node : Node) (h : node.Templated tokens) :
      Tells source tokens (givenId node headLine) (Node.Templated tokens) := by
    apply tells_current.bind
    intro mark _
    refine .ite (faithful_advance.bind fun _ => tells_current.bind fun id _ => ?_) (.pure h)
    exact .ite (faithful_advance.bind fun _ => .pure (h.of_same rfl rfl rfl))
      ((faithful_unexpected _).bind fun _ => .pure h)
  apply tells_current.bind
  intro token _
  exact .ite (.pure h) ((tells_givenName h).bind hid)

omit hheld in
theorem tells_setTemplate {token : Token} (h : node.Templated tokens) (hmem : token ∈ tokens)
    (hused : UsedIn tokens token.text) :
    Tells source tokens (setTemplate node token) (Node.Templated tokens) := by
  unfold setTemplate
  split
  · rw [Node.templated_iff] at h
    refine .pure (Node.templated_iff.mpr ⟨fun name hname => ?_, h.2⟩)
    exact Option.some.inj hname ▸ hused
  · exact (faithful_report (.plain .error .unexpectedToken _ (.token hmem))).bind fun _ => .pure h

omit hheld in
/-- The template that is set is named by the token at hand. -/
theorem tells_templateName {token : Token} (h : node.Templated tokens) (hmem : token ∈ tokens)
    (hused : token.kind.namesTemplate = true → UsedIn tokens token.text) :
    Tells source tokens (match token.kind with
      | .string | .identifier => do
          advance
          setTemplate node token
      | .unterminatedString => do
          reportUnterminated token
          advance
          setTemplate node token
      | _ => do
          unexpected "after 'using'"
          return node) (Node.Templated tokens) := by
  have hset (hkind : token.kind.namesTemplate = true) :
      Tells source tokens (setTemplate node token) (Node.Templated tokens) :=
    tells_setTemplate h hmem (hused hkind)
  split
  next hkind => exact faithful_advance.bind fun _ => hset (by rw [hkind]; rfl)
  next hkind => exact faithful_advance.bind fun _ => hset (by rw [hkind]; rfl)
  next hkind =>
    exact (faithful_reportUnterminated hmem).bind fun _ => faithful_advance.bind fun _ =>
      hset (by rw [hkind]; rfl)
  next => exact (faithful_unexpected _).bind fun _ => .pure h

omit hheld in
theorem tells_elementTemplate (h : node.Templated tokens) (headLine : Nat) :
    Tells source tokens (elementTemplate node headLine) (Node.Templated tokens) := by
  -- the word and the name behind it are looked at in states one step apart
  intro options state hstate
  refine leads_token.bind ?_
  rintro mark state ⟨rfl, rest, hmark⟩
  refine .ite (fun hword => ?_) fun _ => leads_pure ⟨hstate, h⟩
  refine leads_step.bind ?_
  rintro _ _ rfl
  refine leads_token.bind ?_
  rintro name _ ⟨rfl, rest', hname⟩
  have hmem : name ∈ tokens := (hstate.advance.visibleFrom 0).mem (hname ▸ List.mem_cons_self)
  exact tells_templateName h hmem (hstate.usedIn hmark hname hword.1) options _ hstate.advance

theorem tells_elementHead (h : node.Templated tokens) (headLine : Nat) :
    Tells source tokens (elementHead held node headLine) (Node.Templated tokens) := by
  have hskip : Faithful source tokens (skipHead headLine) :=
    faithful_skipUntil (tells_current.bind fun _ _ => .pure trivial)
  refine .iterate h fun node h => ?_
  apply tells_current.bind
  intro token _
  refine .ite (.pure h) ?_
  split
  case h_9 => exact (tells_attachDirective hheld false h).bind fun _ hvalue => .pure hvalue
  case h_10 =>
    apply (faithful_peekKind 1).bind
    intro _
    exact .ite ((tells_property h).bind fun _ hvalue => .pure hvalue) (.pure h)
  case h_11 => exact (faithful_unexpected _).bind fun _ => hskip.bind fun _ => .pure h
  all_goals exact .pure h

/-! ## Elements -/

omit hheld in
theorem tells_templateParams (h : node.Templated tokens) :
    Tells source tokens (templateParams node) (Node.Templated tokens) := by
  unfold templateParams
  split
  · apply (faithful_check .leftParen).bind
    intro _
    exact .ite (faithful_paramList.bind fun _ => .pure (h.of_other rfl rfl rfl)) (.pure h)
  · exact .pure h

theorem tells_elementBody (h : node.Templated tokens) :
    Tells source tokens (elementBody held node) (Node.Templated tokens) := by
  apply tells_get.bind
  intro _ _
  apply (faithful_check .newline).bind
  intro _
  apply (faithful_peekKind 1).bind
  intro _
  apply (faithful_check .leftBrace).bind
  intro _
  refine .ite (tells_braced h fun _ hvalue => tells_bodyItem hheld hvalue) (.ite ?_ (.pure h))
  exact faithful_advance.bind fun _ => faithful_advance.bind fun _ =>
    (faithful_use .indentation).bind fun _ => tells_indentedBody hheld h

theorem tells_elementRest (h : node.Templated tokens) (headLine : Nat) :
    Tells source tokens (elementRest held node headLine) (Node.Templated tokens) :=
  (tells_elementName h headLine).bind fun _ h => (tells_templateParams h).bind fun _ h =>
    (tells_elementTemplate h headLine).bind fun _ h =>
      (tells_elementHead hheld h headLine).bind fun _ h => tells_elementBody hheld h

omit hheld in
/-- An element that is read one level deeper, or passed over if that is too deep. -/
theorem tells_opened {body : Parser Node} (h : node.Templated tokens) (start : Position)
    (hbody : Tells source tokens body (Node.Templated tokens)) :
    Tells source tokens (deeper (refuseElement node) body >>= fun node => close node start)
      (Node.Templated tokens) := by
  have hskip : Faithful source tokens skipElement := by
    refine (faithful_skipUntil (faithful_currentKind.bind fun _ => tells_get.bind fun _ _ =>
      .pure trivial)).bind fun _ => ?_
    apply (faithful_check .leftBrace).bind
    intro _
    exact .ite (faithful_skipBalanced.bind fun _ => .pure trivial) (.pure trivial)
  have hrefused : Tells source tokens (refuseElement node) (Node.Templated tokens) :=
    hskip.bind fun _ => .pure h
  exact (tells_deeper hrefused hbody).bind fun _ hvalue => tells_close hvalue start

theorem tells_genericElement {kind : NodeKind} (h : (Node.ofKind kind default).template? = none) :
    Tells source tokens (genericElement held kind) (Node.Templated tokens) := by
  apply tells_current.bind
  intro keyword _
  apply faithful_advance.bind
  intro _
  have hstart := Node.templated_ofKind tokens kind default h
  exact tells_opened hstart _ (tells_elementRest hheld hstart keyword.line)

theorem tells_exported : Tells source tokens (exported held) (Node.Templated tokens) := by
  apply faithful_startPosition.bind
  intro start
  apply faithful_advance.bind
  intro _
  refine tells_opened (Node.templated_ofKind tokens .fragment default rfl) start ?_
  exact hheld.element.bind fun _ hvalue => .pure (hvalue.of_same rfl rfl rfl)

omit hheld in
theorem tells_function : Tells source tokens function (Node.Templated tokens) := by
  apply faithful_startPosition.bind
  intro start
  apply faithful_advance.bind
  intro _
  apply (faithful_use .logic).bind
  intro _
  apply (faithful_expectName _).bind
  intro found
  cases found with
  | none =>
      exact faithful_synchronize.bind fun _ =>
        tells_close (Node.templated_ofKind tokens _ _ rfl) start
  | some name =>
      refine faithful_paramList.bind fun params => faithful_blockText.bind fun body =>
        tells_close ?_ start
      exact (Node.templated_ofKind tokens (.function params body) default rfl).of_same rfl rfl rfl

/-! ## Blocks of logic -/

omit hheld in
theorem faithful_logicItem (block : LogicBlock) :
    Faithful source tokens (logicItem block) := by
  have hvalue : Faithful source tokens logicValue := faithful_valueOr faithful_synchronize
  apply tells_current.bind
  intro token _
  apply (faithful_peekKind 1).bind
  intro next
  refine .ite ?_ (.ite ?_ (.ite ?_ (.ite ?_ ?_)))
  · apply faithful_advance.bind
    intro _
    apply (faithful_expectName _).bind
    intro found
    cases found with
    | none => exact faithful_synchronize.bind fun _ => .pure trivial
    | some name =>
        exact faithful_paramList.bind fun _ => faithful_blockText.bind fun _ => .pure trivial
  · apply faithful_advance.bind
    intro _
    apply (faithful_expectName _).bind
    intro found
    cases found with
    | none => exact faithful_synchronize.bind fun _ => .pure trivial
    | some name =>
        apply faithful_currentKind.bind
        intro kind
        exact .ite (faithful_advance.bind fun _ => hvalue.bind fun _ => .pure trivial)
          ((faithful_unexpected _).bind fun _ => hvalue.bind fun _ => .pure trivial)
  · exact faithful_advance.bind fun _ => faithful_advance.bind fun _ =>
      hvalue.bind fun _ => .pure trivial
  · exact faithful_advance.bind fun _ => faithful_paramList.bind fun _ =>
      faithful_blockText.bind fun _ => .ite (.pure trivial) (.pure trivial)
  · exact (faithful_unexpected _).bind fun _ => faithful_synchronize.bind fun _ => .pure trivial

theorem tells_logicRest (h : node.Templated tokens) (headLine : Nat) :
    Tells source tokens (logicRest held node headLine) (Node.Templated tokens) := by
  have hturn (found : Node × LogicBlock) (h : found.1.Templated tokens) :
      Tells source tokens (logicTurn held found) fun found => found.1.Templated tokens := by
    obtain ⟨node, block⟩ := found
    apply faithful_currentKind.bind
    intro kind
    split
    · exact (faithful_logicItem block).bind fun _ => .pure h
    · exact (tells_attachDirective hheld true h).bind fun _ hvalue => .pure hvalue
    · exact (faithful_unexpected _).bind fun _ => faithful_synchronize.bind fun _ => .pure h
  apply (tells_elementName h headLine).bind
  intro node h
  apply (faithful_check .leftBrace).bind
  intro _
  apply Tells.ite
  · have hblock : Tells source tokens (braced (node, LogicBlock.empty) (logicTurn held))
        fun found => found.1.Templated tokens := tells_braced h hturn
    exact hblock.bind fun _ hfound => .pure (hfound.of_other rfl rfl rfl)
  · exact (faithful_unexpected _).bind fun _ => faithful_synchronize.bind fun _ =>
      .pure (h.of_other rfl rfl rfl)

theorem tells_logicElement : Tells source tokens (logicElement held) (Node.Templated tokens) := by
  apply tells_current.bind
  intro keyword _
  apply faithful_advance.bind
  intro _
  apply (faithful_use .logic).bind
  intro _
  have hstart := Node.templated_ofKind tokens (.logic .empty) default rfl
  exact tells_opened hstart _ (tells_logicRest hheld hstart keyword.line)

/-! ## State machines -/

omit hheld in
theorem faithful_machineState : Faithful source tokens machineState := by
  have hitem (state : MachineState) : Faithful source tokens (stateItem state) := by
    apply tells_current.bind
    intro token _
    apply (faithful_peekKind 1).bind
    intro next
    refine .ite ?_ (.ite ?_ (.ite ?_ ?_))
    · exact faithful_advance.bind fun _ => faithful_captureBlock.bind fun _ => .pure trivial
    · exact faithful_advance.bind fun _ => faithful_captureBlock.bind fun _ => .pure trivial
    · exact faithful_advance.bind fun _ => faithful_advance.bind fun _ =>
        (faithful_valueOr faithful_synchronize).bind fun _ => .pure trivial
    · exact (faithful_unexpected _).bind fun _ => faithful_synchronize.bind fun _ => .pure trivial
  apply (faithful_expectName _).bind
  intro found
  cases found with
  | none => exact .pure trivial
  | some name =>
      apply (faithful_check .leftBrace).bind
      intro _
      exact .ite ((faithful_braced hitem).bind fun _ => .pure trivial) (.pure trivial)

omit hheld in
theorem faithful_addTransition (machine : StateMachine) :
    Faithful source tokens (addTransition machine) := by
  have htransition : Faithful source tokens transition := by
    apply (faithful_expectName _).bind
    intro found
    cases found with
    | none => exact .pure trivial
    | some from_ =>
        apply (faithful_eat .arrow).bind
        intro _
        refine .ite ?_ ((faithful_unexpected _).bind fun _ => faithful_synchronize.bind fun _ =>
          .pure trivial)
        apply (faithful_expectName _).bind
        intro found
        cases found with
        | none => exact faithful_synchronize.bind fun _ => .pure trivial
        | some target =>
            apply (faithful_eat .colon).bind
            intro _
            exact .ite ((faithful_expectName _).bind fun _ => .pure trivial) (.pure trivial)
  apply htransition.bind
  intro found
  cases found with
  | none => exact .pure trivial
  | some found => exact .pure trivial

omit hheld in
theorem faithful_initialState (machine : StateMachine) :
    Faithful source tokens (initialState machine) := by
  apply tells_current.bind
  intro keyword hmem
  have hname : Faithful source tokens (initialName machine keyword) := by
    apply (faithful_expectName _).bind
    intro found
    cases found with
    | none => exact faithful_synchronize.bind fun _ => .pure trivial
    | some name =>
        refine .ite ?_ (.pure trivial)
        exact (faithful_report (.plain .error .duplicateName _ (.token hmem))).bind fun _ =>
          .pure trivial
  apply faithful_advance.bind
  intro _
  apply faithful_currentKind.bind
  intro kind
  apply Tells.ite
  · exact faithful_advance.bind fun _ => hname
  · exact (faithful_report (.missingColon "initial" hmem)).bind fun _ => hname

theorem tells_machineItem (found : Node × StateMachine) (h : found.1.Templated tokens) :
    Tells source tokens (machineItem held found) fun found => found.1.Templated tokens := by
  obtain ⟨node, machine⟩ := found
  have htransitions (machine : StateMachine) :
      Faithful source tokens (transitionItem machine) := by
    apply faithful_currentKind.bind
    intro kind
    refine .ite (faithful_addTransition machine) ((faithful_unexpected _).bind fun _ => ?_)
    exact faithful_synchronize.bind fun _ => .pure trivial
  apply tells_current.bind
  intro token _
  apply (faithful_peekKind 1).bind
  intro next
  refine .ite ?_ (.ite ?_ (.ite ?_ (.ite ?_ (.ite ?_ (.ite ?_ ?_)))))
  · exact (tells_attachDirective hheld true h).bind fun _ hvalue => .pure hvalue
  · exact (faithful_initialState machine).bind fun _ => .pure h
  · apply faithful_advance.bind
    intro _
    apply faithful_machineState.bind
    intro found
    cases found with
    | none => exact .pure h
    | some state => exact .pure h
  · exact faithful_advance.bind fun _ => (faithful_braced htransitions).bind fun _ => .pure h
  · exact (faithful_addTransition machine).bind fun _ => .pure h
  · exact (tells_property h).bind fun _ hvalue => .pure hvalue
  · exact (faithful_unexpected _).bind fun _ => faithful_synchronize.bind fun _ => .pure h

theorem tells_machineRest {keyword : Token} (h : node.Templated tokens) (hmem : keyword ∈ tokens) :
    Tells source tokens (machineRest held node keyword) (Node.Templated tokens) := by
  have hbody {node : Node} (h : node.Templated tokens) :
      Tells source tokens (machineBody held node) fun found => found.1.Templated tokens := by
    apply (faithful_check .leftBrace).bind
    intro _
    refine .ite (tells_braced h (tells_machineItem hheld)) ?_
    exact (faithful_unexpected _).bind fun _ => faithful_synchronize.bind fun _ => .pure h
  apply (tells_elementName h keyword.line).bind
  intro node h
  apply (hbody h).bind
  intro found hfound
  refine .ite ?_ (.pure (hfound.of_other rfl rfl rfl))
  exact (faithful_report (.plain .error .missingRequired _ (.token hmem))).bind fun _ =>
    .pure (hfound.of_other rfl rfl rfl)

theorem tells_stateMachine :
    Tells source tokens (stateMachine held) (Node.Templated tokens) := by
  apply tells_current.bind
  intro keyword hmem
  apply faithful_advance.bind
  intro _
  apply (faithful_use .stateMachines).bind
  intro _
  have hstart := Node.templated_ofKind tokens (.stateMachine .empty) default rfl
  exact tells_opened hstart _ (tells_machineRest hheld hstart hmem)

theorem tells_elementWith : Tells source tokens (elementWith held) (Node.Templated tokens) := by
  apply tells_current.bind
  intro token hmem
  have hkeyword : Faithful source tokens (checkKeyword token) :=
    .ite (.pure trivial) (tells_read.bind fun _ _ => faithful_report (.keyword _ hmem))
  apply (faithful_peekKind 1).bind
  intro next
  refine .ite (tells_exported hheld) (.ite (tells_function) (.ite ?_
    (.ite ?_ (.ite ?_ (.ite ?_ (.ite ?_ ?_))))))
  · exact tells_logicElement hheld
  · exact tells_stateMachine hheld
  · exact (faithful_use .templates).bind fun _ => tells_genericElement hheld rfl
  · exact (faithful_use .environment).bind fun _ => tells_genericElement hheld rfl
  · exact tells_genericElement hheld rfl
  · exact hkeyword.bind fun _ => tells_genericElement hheld rfl

end

end Parser
end SceneLang
