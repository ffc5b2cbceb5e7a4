import SceneLang.Proofs.Depth.Near
import SceneLang.Proofs.Parser.Logic

/-!
# How deep elements lie

An element goes one level deeper for what it holds, and is near enough to the top if what it holds
is.  Only a function takes no level, since its body is a text.  An element for which there is no
level left is read without its body, and an error says so.
-/

namespace SceneLang
namespace Parser

variable {bound depth : Nat} {past state next : State} {node value : Node}

/-! ## Properties and directives -/

theorem makes_close (start : Position) (hnear : NearNode depth node past) :
    Makes bound depth past (close node start) (NearNode depth) := by
  apply (resting_locationFrom start).steady.before
  intro loc
  have hsame : SameParts node { node with loc := loc } := ⟨rfl, rfl, rfl⟩
  exact lasting_nearNode.makes (hsame.near rfl hnear)

theorem makes_property (node : Node) :
    Makes bound depth past (property node) (Directed depth node) := by
  apply resting_current.steady.before
  intro key
  have hrest : Makes bound depth past (do
      let place ← current
      let read ← valueOr synchronize
      checkProperty key read place
      return { node with properties := node.properties.insert key.text read })
      (Directed depth node) :=
    resting_current.steady.before fun _ => (steady_valueOr steady_synchronize).before fun _ =>
      (resting_checkProperty _ _ _).steady.before fun _ =>
        .pure fun _ _ => ⟨rfl, rfl, fun _ hmem => .inl hmem⟩
  apply steady_advance.before
  intro _
  apply resting_currentKind.steady.before
  intro kind
  apply Makes.ite
  · exact fun _ => steady_advance.before fun _ => hrest
  · exact fun _ => (resting_report _).steady.before fun _ => hrest

theorem directed_attach {directive : Directive} (hnear : NearDirective depth directive state) :
    Directed depth node (node.attach directive) state := by
  unfold Node.attach
  split
  · exact ⟨rfl, rfl, fun _ hmem => .inl hmem⟩
  · exact ⟨rfl, rfl, fun _ hmem => .inl hmem⟩
  · refine ⟨rfl, rfl, fun other hmem => ?_⟩
    obtain hmem | hmem := List.mem_append.mp hmem
    · exact .inl hmem
    · exact .inr (List.mem_singleton.mp hmem ▸ hnear)

theorem makes_attach {placed : PlacedDirective}
    (hnear : NearDirective depth placed.directive past) :
    Makes bound depth past (attach node placed) (Directed depth node) := by
  have hattach : Makes bound depth past (pure (node.attach placed.directive))
      (Directed depth node) :=
    .pure fun now hnow => directed_attach (hnear.later hnow)
  unfold attach
  split
  · exact .ite (fun _ => (resting_report _).steady.before fun _ => hattach) fun _ => hattach
  · exact .ite (fun _ => (resting_report _).steady.before fun _ => hattach) fun _ => hattach
  · exact hattach

/-- What is held is near enough to the top, whatever the nesting. -/
structure NearHeld (bound : Nat) (held : Held) : Prop where
  element : ∀ depth past, Makes bound depth past held.element (NearNode depth)
  directive : ∀ depth past allowBody, Makes bound depth past (held.directive allowBody)
    fun found state => ∀ placed ∈ found, NearDirective depth placed.directive state
  conditional : ∀ depth past, Makes bound depth past held.conditional (NearDirective depth)

section

variable {held : Held} (hheld : NearHeld bound held)
include hheld

theorem makes_attachDirective (allowBody : Bool) (node : Node) :
    Makes bound depth past (attachDirective held allowBody node) (Directed depth node) := by
  apply (hheld.directive depth past allowBody).bind
  intro found now _ hfound
  cases found with
  | none => exact .pure fun _ _ => .refl
  | some placed => exact makes_attach (hfound placed rfl)

/-! ## Bodies -/

theorem makes_bodyItem (node : Node) :
    Makes bound depth past (bodyItem held node) (Grown depth node) := by
  have hproperty : Makes bound depth past (property node) (Grown depth node) :=
    (makes_property node).mono fun _ _ _ => .inr
  apply resting_currentKind.steady.before
  intro kind
  split
  · exact (makes_attachDirective hheld true node).mono fun _ _ _ => .inr
  · exact steady_advance.before fun _ => (resting_use .spread).steady.before fun _ =>
      (steady_valueOr steady_synchronize).before fun _ =>
        .pure fun _ _ => .inr ⟨rfl, rfl, fun _ hmem => .inl hmem⟩
  · apply resting_propertyAhead.steady.before
    intro ahead
    refine .ite (fun _ => hproperty) fun _ => ?_
    apply (hheld.element depth past).bind
    intro child now _ hchild
    exact .pure fun _ hnow => .inl ⟨child, rfl, hchild.later hnow⟩
  · apply (resting_peekKind 1).steady.before
    intro _
    refine .ite (fun _ => hproperty) fun _ => ?_
    exact (resting_unexpected _).steady.before fun _ => steady_synchronize.before fun _ =>
      .pure fun _ _ => .inr .refl

theorem makes_bodyItem_parts (hparts : NearParts depth node past) :
    Makes bound depth past (bodyItem held node) (NearParts depth) :=
  (makes_bodyItem hheld node).mono fun _ now hnow hgrown =>
    hgrown.nearParts (lasting_nearParts node past now hnow hparts)

theorem makes_indentedItem (hparts : NearParts depth node past) :
    Makes bound depth past (indentedItem held node) (NearParts depth) := by
  apply resting_get.steady.before
  intro before
  apply (makes_bodyItem_parts hheld hparts).bind
  intro value now _ hvalue
  apply resting_get.steady.before
  intro after
  have hmakes : Makes bound depth now (pure value) (NearParts depth) :=
    lasting_nearParts.makes hvalue
  exact .ite (fun _ => steady_advance.before fun _ => hmakes) fun _ => hmakes

theorem makes_indentedBody (hparts : NearParts depth node past) :
    Makes bound depth past (indentedBody held node) (NearParts depth) := by
  have hlasting : Lasting fun (found : Node × Nat) state => NearParts depth found.1 state :=
    lasting_nearParts.comap Prod.fst
  have hloop : Makes bound depth past (iterate (node, 0) (indentedTurn held))
      fun found state => NearParts depth found.1 state := by
    apply Makes.iterate hlasting hparts
    rintro ⟨node, further⟩ now - hnode
    have hturned := lasting_turned hlasting hlasting
    apply resting_currentKind.steady.before
    intro kind
    split
    · exact steady_advance.before fun _ => hturned.makes hnode
    · exact steady_advance.before fun _ => hturned.makes hnode
    · apply steady_advance.before
      intro _
      apply Makes.ite
      · exact fun _ => hturned.makes hnode
      · intro _
        apply (makes_lower further).bind
        intro _ now hnow _
        exact hturned.makes (lasting_nearParts node _ now hnow hnode)
    · exact hturned.makes hnode
    · exact (resting_unexpected _).steady.before fun _ => steady_advance.before fun _ =>
        hturned.makes hnode
    · apply (makes_indentedItem hheld hnode).bind
      intro value now _ hvalue
      exact hturned.makes hvalue
  exact hloop.bind fun found now _ hfound => lasting_nearParts.makes hfound

/-! ## Heads of elements -/

omit hheld in
theorem makes_givenName (node : Node) :
    Makes bound depth past (givenName node) fun value _ => SameParts node value := by
  have hnamed {past : State} (token : Token) :
      Makes bound depth past (pure { node with name := some token.text }) fun value _ =>
        SameParts node value :=
    .pure fun _ _ => ⟨rfl, rfl, rfl⟩
  have hsame : Makes bound depth past (pure node) fun value _ => SameParts node value :=
    .pure fun _ _ => ⟨rfl, rfl, rfl⟩
  apply resting_current.steady.before
  intro token
  split
  · exact steady_advance.before fun _ => hnamed token
  · exact (resting_reportUnterminated token).steady.before fun _ =>
      steady_advance.before fun _ => hnamed token
  · apply (resting_peekKind 1).steady.before
    intro _
    exact .ite (fun _ => hsame) fun _ => steady_advance.before fun _ => hnamed token
  · exact hsame

omit hheld in
theorem makes_givenId (node : Node) (headLine : Nat) :
    Makes bound depth past (givenId node headLine) fun value _ => SameParts node value := by
  have hsame : Makes bound depth past (pure node) fun value _ => SameParts node value :=
    .pure fun _ _ => ⟨rfl, rfl, rfl⟩
  apply resting_current.steady.before
  intro mark
  refine .ite (fun _ => ?_) fun _ => hsame
  apply steady_advance.before
  intro _
  apply resting_current.steady.before
  intro id
  apply Makes.ite
  · exact fun _ => steady_advance.before fun _ => .pure fun _ _ => ⟨rfl, rfl, rfl⟩
  · exact fun _ => (resting_unexpected _).steady.before fun _ => hsame

omit hheld in
theorem makes_elementName (node : Node) (headLine : Nat) :
    Makes bound depth past (elementName node headLine) fun value _ => SameParts node value := by
  apply resting_current.steady.before
  intro token
  refine .ite (fun _ => .pure fun _ _ => ⟨rfl, rfl, rfl⟩) fun _ => ?_
  apply (makes_givenName node).bind
  intro named now _ hnamed
  apply (makes_givenId named headLine).mono
  intro value _ _ hvalue
  exact ⟨hvalue.keyword.trans hnamed.keyword, hvalue.children.trans hnamed.children,
    hvalue.directives.trans hnamed.directives⟩

omit hheld in
theorem makes_setTemplate (node : Node) (token : Token) :
    Makes bound depth past (setTemplate node token) fun value _ => SameParts node value := by
  unfold setTemplate
  split
  next hkind =>
    refine .pure fun _ _ => ⟨?_, rfl, rfl⟩
    rw [Node.keyword, Node.keyword, hkind]
    rfl
  · exact (resting_report _).steady.before fun _ => .pure fun _ _ => ⟨rfl, rfl, rfl⟩

omit hheld in
theorem makes_templateName (node : Node) :
    Makes bound depth past (templateName node) fun value _ => SameParts node value := by
  apply resting_current.steady.before
  intro token
  split
  · exact steady_advance.before fun _ => makes_setTemplate node token
  · exact steady_advance.before fun _ => makes_setTemplate node token
  · exact (resting_reportUnterminated token).steady.before fun _ =>
      steady_advance.before fun _ => makes_setTemplate node token
  · exact (resting_unexpected _).steady.before fun _ => .pure fun _ _ => ⟨rfl, rfl, rfl⟩

omit hheld in
theorem makes_templateParams (node : Node) :
    Makes bound depth past (templateParams node) fun value _ => SameParts node value := by
  unfold templateParams
  split
  next hkind =>
    apply (resting_check .leftParen).steady.before
    intro _
    refine .ite (fun _ => ?_) fun _ => .pure fun _ _ => ⟨rfl, rfl, rfl⟩
    refine steady_paramList.before fun _ => .pure fun _ _ => ⟨?_, rfl, rfl⟩
    rw [Node.keyword, Node.keyword, hkind]
    rfl
  · exact .pure fun _ _ => ⟨rfl, rfl, rfl⟩

omit hheld in
theorem makes_elementTemplate (node : Node) (headLine : Nat) :
    Makes bound depth past (elementTemplate node headLine) fun value _ =>
      SameParts node value := by
  apply resting_current.steady.before
  intro mark
  refine .ite (fun _ => ?_) fun _ => .pure fun _ _ => ⟨rfl, rfl, rfl⟩
  exact steady_advance.before fun _ => makes_templateName node

theorem makes_elementHead (headLine : Nat) (hparts : NearParts depth node past) :
    Makes bound depth past (elementHead held node headLine) (NearParts depth) := by
  apply Makes.iterate lasting_nearParts hparts
  intro node now _ hnode
  have hturned : Lasting (Turned (NearParts depth) (NearParts depth)) :=
    lasting_turned lasting_nearParts lasting_nearParts
  have hdirected {p : Parser Node} (hp : Makes bound depth now p (Directed depth node)) :
      Makes bound depth now (do return .yield (← p)) (Turned (NearParts depth) (NearParts depth)) :=
    hp.bind fun value next hnext hvalue =>
      hturned.makes (hvalue.nearParts (lasting_nearParts node now next hnext hnode))
  apply resting_current.steady.before
  intro token
  refine .ite (fun _ => hturned.makes hnode) fun _ => ?_
  split
  case h_9 => exact hdirected (makes_attachDirective hheld false node)
  case h_10 =>
    apply (resting_peekKind 1).steady.before
    intro _
    exact .ite (fun _ => hdirected (makes_property node)) fun _ => hturned.makes hnode
  case h_11 =>
    exact (resting_unexpected _).steady.before fun _ =>
      (steady_skipHead headLine).before fun _ => hturned.makes hnode
  all_goals exact hturned.makes hnode

/-! ## Elements -/

theorem makes_elementBody (hparts : NearParts depth node past) :
    Makes bound depth past (elementBody held node) (NearParts depth) := by
  apply resting_get.steady.before
  intro now
  apply (resting_check .newline).steady.before
  intro _
  apply (resting_peekKind 1).steady.before
  intro _
  apply (resting_check .leftBrace).steady.before
  intro _
  refine .ite (fun _ => ?_) fun _ => .ite (fun _ => ?_) fun _ => lasting_nearParts.makes hparts
  · exact .braced lasting_nearParts hparts fun node _ _ hnode => makes_bodyItem_parts hheld hnode
  · exact steady_advance.before fun _ => steady_advance.before fun _ =>
      (resting_use .indentation).steady.before fun _ => makes_indentedBody hheld hparts

theorem makes_elementRest (headLine : Nat) (hparts : NearParts depth node past) :
    Makes bound depth past (elementRest held node headLine) (NearParts depth) := by
  apply (makes_elementName node headLine).bind
  intro named now hnow hnamed
  apply (makes_templateParams named).bind
  intro parametrized now' hnow' hparametrized
  apply (makes_elementTemplate parametrized headLine).bind
  intro templated now'' hnow'' htemplated
  have hreaches := (hnow.trans hnow').trans hnow''
  have htemplated : NearParts depth templated now'' := htemplated.nearParts
    (hparametrized.nearParts (hnamed.nearParts (lasting_nearParts node past now'' hreaches hparts)))
  apply (makes_elementHead hheld headLine htemplated).bind
  intro headed last _ hheaded
  exact makes_elementBody hheld hheaded

omit hheld in
/-- An element whose level is refused is left without a body. -/
theorem makes_deeper {body : Parser Node} {node : Node} (hchildren : node.children = [])
    (hdirectives : node.directives = [])
    (hbody : depth < maxNesting → ∀ now, Reaches past now →
      Makes bound (depth + 1) now body (NearNode depth)) :
    Makes bound depth past (deeper (refuseElement node) body) (NearNode depth) := by
  refine Makes.deeper lasting_nearNode (fun hdepth now _ hreports => ?_) hbody
  apply steady_skipElement.before
  intro _
  apply lasting_nearNode.makes
  exact near_empty (Nat.le_of_eq hdepth) hchildren hdirectives (.inl hreports)

omit hheld in
/-- An element of a kind, with what is read of it one level deeper. -/
theorem makes_opened {kind : NodeKind} {start : Position} {body : Node → Parser Node}
    (hbody : ∀ {now node}, NearParts (depth + 1) node now →
      Makes bound (depth + 1) now (body node) (NearParts (depth + 1))) :
    Makes bound depth past (deeper (refuseElement (Node.ofKind kind default))
      (body (Node.ofKind kind default)) >>= fun node => close node start) (NearNode depth) := by
  have hdeeper : Makes bound depth past (deeper (refuseElement (Node.ofKind kind default))
      (body (Node.ofKind kind default))) (NearNode depth) := by
    refine makes_deeper rfl rfl fun hdepth now _ => ?_
    apply (hbody (nearParts_ofKind kind default)).mono
    exact fun _ _ _ hparts => hparts.near hdepth
  exact hdeeper.bind fun node now _ hnode => makes_close start hnode

theorem makes_genericElement (kind : NodeKind) :
    Makes bound depth past (genericElement held kind) (NearNode depth) := by
  apply resting_current.steady.before
  intro keyword
  apply steady_advance.before
  intro _
  exact makes_opened fun hparts => makes_elementRest hheld keyword.line hparts

theorem makes_exported : Makes bound depth past (exported held) (NearNode depth) := by
  apply resting_startPosition.steady.before
  intro start
  apply steady_advance.before
  intro _
  have hdeeper : Makes bound depth past (deeper (refuseElement (.fragment [] default)) do
      return { ← held.element with exported := true }) (NearNode depth) := by
    refine makes_deeper rfl rfl fun _ now _ => ?_
    apply (hheld.element (depth + 1) now).bind
    intro node next _ hnode
    have hsame : SameParts node { node with exported := true } := ⟨rfl, rfl, rfl⟩
    exact lasting_nearNode.makes (hsame.near rfl hnode.shallower)
  exact hdeeper.bind fun node now _ hnode => makes_close start hnode

omit hheld in
theorem makes_function : Makes bound depth past function (NearNode depth) := by
  refine .of_depth_le fun hdepth => ?_
  apply resting_startPosition.steady.before
  intro start
  apply steady_advance.before
  intro _
  apply (resting_use .logic).steady.before
  intro _
  apply (steady_expectName _).before
  intro found
  cases found with
  | none =>
      exact steady_synchronize.before fun _ =>
        makes_close start (near_empty hdepth rfl rfl (.inr rfl))
  | some name =>
      exact steady_paramList.before fun _ => steady_blockText.before fun _ =>
        makes_close start (near_empty hdepth rfl rfl (.inr rfl))

/-! ## Logic and state machines -/

theorem makes_logicRest (headLine : Nat) (hparts : NearParts depth node past) :
    Makes bound depth past (logicRest held node headLine) (NearParts depth) := by
  apply (makes_elementName node headLine).bind
  intro named now hnow hnamed
  have hnamed : NearParts depth named now :=
    hnamed.nearParts (lasting_nearParts node past now hnow hparts)
  apply (resting_check .leftBrace).steady.before
  intro _
  apply Makes.ite
  · intro _
    have hlasting : Lasting fun (found : Node × LogicBlock) now => NearParts depth found.1 now :=
      lasting_nearParts.comap Prod.fst
    have hblock : Makes bound depth now (braced (named, LogicBlock.empty) (logicTurn held))
        fun found state => NearParts depth found.1 state := by
      refine .braced hlasting hnamed ?_
      rintro ⟨node, block⟩ now - hnode
      apply resting_currentKind.steady.before
      intro kind
      split
      · exact (steady_logicItem block).before fun _ => hlasting.makes hnode
      · apply (makes_attachDirective hheld true node).bind
        intro value next hnext hvalue
        exact hlasting.makes (hvalue.nearParts (lasting_nearParts node now next hnext hnode))
      · exact (resting_unexpected _).steady.before fun _ => steady_synchronize.before fun _ =>
          hlasting.makes hnode
    exact hblock.bind fun found next _ hfound =>
      lasting_nearParts.makes ⟨hfound.children, hfound.directives⟩
  · intro _
    exact (resting_unexpected _).steady.before fun _ => steady_synchronize.before fun _ =>
      lasting_nearParts.makes ⟨hnamed.children, hnamed.directives⟩

theorem makes_logicElement : Makes bound depth past (logicElement held) (NearNode depth) := by
  apply resting_current.steady.before
  intro keyword
  apply steady_advance.before
  intro _
  apply (resting_use .logic).steady.before
  intro _
  exact makes_opened fun hparts => makes_logicRest hheld keyword.line hparts

theorem makes_machineItem {found : Node × StateMachine} (hparts : NearParts depth found.1 past) :
    Makes bound depth past (machineItem held found) fun found state =>
      NearParts depth found.1 state := by
  obtain ⟨node, machine⟩ := found
  have hlasting : Lasting fun (found : Node × StateMachine) now => NearParts depth found.1 now :=
    lasting_nearParts.comap Prod.fst
  have hsame (machine : StateMachine) : Makes bound depth past (pure (node, machine))
      fun found state => NearParts depth found.1 state :=
    hlasting.makes hparts
  have hdirected {p : Parser Node} (hp : Makes bound depth past p (Directed depth node)) :
      Makes bound depth past (do return (← p, machine)) fun found state =>
        NearParts depth found.1 state :=
    hp.bind fun value next hnext hvalue =>
      hlasting.makes (hvalue.nearParts (lasting_nearParts node past next hnext hparts))
  apply resting_current.steady.before
  intro token
  apply (resting_peekKind 1).steady.before
  intro next
  apply Makes.ite
  · exact fun _ => hdirected (makes_attachDirective hheld true node)
  refine fun _ => .ite (fun _ => ?_) fun _ => .ite (fun _ => ?_) fun _ => .ite (fun _ => ?_)
    fun _ => .ite (fun _ => ?_) fun _ => .ite (fun _ => ?_) fun _ => ?_
  · exact (steady_initialState machine).before hsame
  · apply steady_advance.before
    intro _
    apply steady_machineState.before
    intro found
    cases found with
    | none => exact hsame machine
    | some state => exact hsame _
  · exact steady_advance.before fun _ => (Steady.braced steady_transitionItem).before hsame
  · exact (steady_addTransition machine).before hsame
  · exact hdirected (makes_property node)
  · exact (resting_unexpected _).steady.before fun _ => steady_synchronize.before fun _ =>
      hsame machine

theorem makes_machineRest (keyword : Token) (hparts : NearParts depth node past) :
    Makes bound depth past (machineRest held node keyword) (NearParts depth) := by
  apply (makes_elementName node keyword.line).bind
  intro named now hnow hnamed
  have hnamed : NearParts depth named now :=
    hnamed.nearParts (lasting_nearParts node past now hnow hparts)
  have hlasting : Lasting fun (found : Node × StateMachine) now => NearParts depth found.1 now :=
    lasting_nearParts.comap Prod.fst
  have hbody : Makes bound depth now (machineBody held named) fun found state =>
      NearParts depth found.1 state := by
    apply (resting_check .leftBrace).steady.before
    intro _
    apply Makes.ite
    · exact fun _ => .braced hlasting hnamed fun found _ _ hfound => makes_machineItem hheld hfound
    · exact fun _ => (resting_unexpected _).steady.before fun _ =>
        steady_synchronize.before fun _ => hlasting.makes hnamed
  apply hbody.bind
  intro found next _ hfound
  have hmachine : Makes bound depth next (pure { found.1 with kind := .stateMachine found.2 })
      (NearParts depth) :=
    lasting_nearParts.makes ⟨hfound.children, hfound.directives⟩
  exact .ite (fun _ => (resting_report _).steady.before fun _ => hmachine) fun _ => hmachine

theorem makes_stateMachine : Makes bound depth past (stateMachine held) (NearNode depth) := by
  apply resting_current.steady.before
  intro keyword
  apply steady_advance.before
  intro _
  apply (resting_use .stateMachines).steady.before
  intro _
  exact makes_opened fun hparts => makes_machineRest hheld keyword hparts

theorem makes_elementWith : Makes bound depth past (elementWith held) (NearNode depth) := by
  apply resting_current.steady.before
  intro token
  apply (resting_peekKind 1).steady.before
  intro next
  refine .ite (fun _ => ?_) fun _ => .ite (fun _ => ?_) fun _ => .ite (fun _ => ?_) fun _ =>
    .ite (fun _ => ?_) fun _ => .ite (fun _ => ?_) fun _ => .ite (fun _ => ?_) fun _ =>
      .ite (fun _ => ?_) fun _ => ?_
  · exact makes_exported hheld
  · exact makes_function
  · exact makes_logicElement hheld
  · exact makes_stateMachine hheld
  · exact (resting_use .templates).steady.before fun _ => makes_genericElement hheld _
  · exact (resting_use .environment).steady.before fun _ => makes_genericElement hheld _
  · exact makes_genericElement hheld _
  · exact (resting_checkKeyword token).steady.before fun _ => makes_genericElement hheld _

end

end Parser
end SceneLang
