import SceneLang.Proofs.Place.Nodes

/-!
# Where elements lie

An element starts at its keyword, and is closed at the end of the token read last.  By then its
children have been read up to their end, so that they lie within it, each behind the one before.
-/

namespace SceneLang
namespace Parser

variable {source : List Char} {past state : State} {token : Token} {node value : Node}
  {low : Position} {word : String}

/-! ## Properties and directives -/

theorem isLayout_of_identifier (h : token.kind = .identifier) : token.kind.isLayout = false := by
  rw [h]
  rfl

/-- More directives at most, behind the token that was stepped over. -/
def EndowedBehind (source : List Char) (token : Token) (node value : Node) (state : State) : Prop :=
  Endowed source node value ∧ Passed source token.position state

theorem laysAt_property (node : Node) (hplain : token.kind.isLayout = false)
    (heof : token.kind ≠ .eof) :
    LaysAt source (· = token) past (property node) (EndowedBehind source token node) := by
  apply LaysAt.current
  rintro key rfl
  apply LaysAt.advance hplain heof
  intro now _ hread
  have hrest : Lays source now (do
      let place ← current
      let read ← valueOr synchronize
      checkProperty key read place
      return { node with properties := node.properties.insert key.text read })
      (EndowedBehind source key node) :=
    .before resting_current.steady fun _ => .before (steady_valueOr steady_synchronize) fun _ =>
      .before (resting_checkProperty _ _ _).steady fun _ =>
        .pure fun _ hnow => ⟨⟨rfl, rfl, fun _ hmem => .inl hmem⟩,
          (hread.passed hplain).reaches hnow⟩
  apply LaysAt.before resting_currentKind.steady
  intro kind
  apply LaysAt.ite
  · exact fun _ => .before steady_advance fun _ => hrest
  · exact fun _ => .before (resting_report _).steady fun _ => hrest

theorem endowed_attach {directive : Directive} (hwhole : directive.Whole source) :
    Endowed source node (node.attach directive) := by
  unfold Node.attach
  split
  · exact ⟨rfl, rfl, fun _ hmem => .inl hmem⟩
  · exact ⟨rfl, rfl, fun _ hmem => .inl hmem⟩
  · refine ⟨rfl, rfl, fun other hmem => ?_⟩
    obtain hmem | hmem := List.mem_append.mp hmem
    · exact .inl hmem
    · exact .inr (List.mem_singleton.mp hmem ▸ hwhole)

theorem lays_attach {placed : PlacedDirective} (hwhole : placed.directive.Whole source) :
    Lays source past (attach node placed) fun value _ => Endowed source node value := by
  have hattach : Lays source past (pure (node.attach placed.directive)) fun value _ =>
      Endowed source node value :=
    .pure fun _ _ => endowed_attach hwhole
  unfold attach
  split
  · exact .ite (fun _ => .before (resting_report _).steady fun _ => hattach) fun _ => hattach
  · exact .ite (fun _ => .before (resting_report _).steady fun _ => hattach) fun _ => hattach
  · exact hattach

/-- What directives are found lies as it should. -/
def WholeFound (source : List Char) (found : Option PlacedDirective) : Prop :=
  ∀ placed ∈ found, placed.directive.Whole source

/-- What is held lies as it should, from the token on that it starts at. -/
structure LaidHeld (source : List Char) (held : Held) : Prop where
  element : ∀ past token, token.kind = .identifier →
    LaysAt source (· = token) past held.element (Placed source token)
  directive : ∀ past token allowBody, token.kind = .at →
    LaysAt source (· = token) past (held.directive allowBody) fun found state =>
      WholeFound source found ∧ Passed source token.position state
  conditional : ∀ past, Lays source past held.conditional fun directive _ => directive.Whole source

section

variable {held : Held} (hheld : LaidHeld source held)
include hheld

theorem laysAt_attachDirective (allowBody : Bool) (node : Node) (hat : token.kind = .at) :
    LaysAt source (· = token) past (attachDirective held allowBody node)
      (EndowedBehind source token node) := by
  apply (hheld.directive past token allowBody hat).bind
  rintro found now - ⟨hfound, hpassed⟩
  cases found with
  | none => exact .pure fun _ hnow => ⟨.refl, hpassed.reaches hnow⟩
  | some placed =>
      apply (lays_attach (hfound placed rfl)).mono
      exact fun value _ hnow hvalue => ⟨hvalue, hpassed.reaches hnow⟩

/-! ## Bodies -/

theorem laysAt_bodyItem (node : Node) :
    LaysAt source (· = token) past (bodyItem held node) (Extended source token node) := by
  have hextended {p : Parser Node}
      (hp : LaysAt source (· = token) past p (EndowedBehind source token node)) :
      LaysAt source (· = token) past p (Extended source token node) :=
    hp.mono fun _ _ _ h => .inr (.inr h)
  apply LaysAt.currentKind
  rintro token rfl
  split
  next hkind => exact hextended (laysAt_attachDirective hheld true node hkind)
  next hkind =>
    have hplain : token.kind.isLayout = false := by
      rw [hkind]
      rfl
    apply hextended
    apply LaysAt.advance hplain (by simp [hkind])
    intro now _ hread
    apply LaysAt.before (resting_use .spread).steady
    intro _
    apply LaysAt.before (steady_valueOr steady_synchronize)
    intro _
    refine .pure fun _ hnow => ⟨⟨rfl, rfl, fun _ hmem => .inl hmem⟩, ?_⟩
    exact (hread.passed hplain).reaches hnow
  next hkind =>
    apply LaysAt.rest resting_propertyAhead
    intro ahead
    refine .ite (fun _ => hextended ?_) fun _ => ?_
    · exact laysAt_property node (isLayout_of_identifier hkind) (by simp [hkind])
    apply (hheld.element past token hkind).bind
    intro child now _ hchild
    exact .pure fun last hnow => .inl ⟨child, rfl, lasting_placed child now last hnow hchild⟩
  next =>
    apply LaysAt.rest (resting_peekKind 1)
    intro next
    apply LaysAt.ite
    · intro hstring
      simp only [Bool.and_eq_true, decide_eq_true_eq] at hstring
      have hplain : token.kind.isLayout = false := by
        rw [hstring.1]
        rfl
      exact hextended (laysAt_property node hplain (by simp [hstring.1]))
    · exact fun _ => .before (resting_unexpected _).steady fun _ => .before steady_synchronize
        fun _ => .pure fun _ _ => .inr (.inl rfl)

theorem lays_bodyItem (hparts : Parts source low word node past) :
    Lays source past (bodyItem held node) (Parts source low word) := by
  apply LaysAt.each
  intro token _ hheads
  apply (laysAt_bodyItem hheld node).mono
  exact fun value now hnow hextended => hextended.parts hparts hheads hnow

theorem lays_indentedItem (hparts : Parts source low word node past) :
    Lays source past (indentedItem held node) (Parts source low word) := by
  apply LaysAt.before resting_get.steady
  intro before
  apply (lays_bodyItem hheld hparts).bind
  intro value now _ hvalue
  apply LaysAt.before resting_get.steady
  intro after
  have hlays : Lays source now (pure value) (Parts source low word) := lasting_parts.lays hvalue
  exact .ite (fun _ => .before steady_advance fun _ => hlays) fun _ => hlays

theorem lays_indentedBody (hparts : Parts source low word node past) :
    Lays source past (indentedBody held node) (Parts source low word) := by
  have hlasting : Lasting fun (found : Node × Nat) state => Parts source low word found.1 state :=
    lasting_parts.comap Prod.fst
  have hloop : Lays source past (iterate (node, 0) (indentedTurn held))
      fun found state => Parts source low word found.1 state := by
    apply LaysAt.iterate hlasting hparts
    rintro ⟨node, further⟩ now - hnode
    have hturned := lasting_turned hlasting hlasting
    apply LaysAt.before resting_currentKind.steady
    intro kind
    split
    · exact .before steady_advance fun _ => hturned.lays hnode
    · exact .before steady_advance fun _ => hturned.lays hnode
    · apply LaysAt.before steady_advance
      intro _
      apply LaysAt.ite
      · exact fun _ => hturned.lays hnode
      · intro _
        apply (laysAt_of_makes (makes_lower further)).bind
        intro _ now hnow _
        exact hturned.lays (lasting_parts node _ now hnow hnode)
    · exact hturned.lays hnode
    · exact .before (resting_unexpected _).steady fun _ => .before steady_advance fun _ =>
        hturned.lays hnode
    · apply (lays_indentedItem hheld hnode).bind
      intro value now _ hvalue
      exact hturned.lays hvalue
  exact hloop.bind fun found now _ hfound => lasting_parts.lays hfound

/-! ## Heads of elements -/

theorem lays_elementHead (headLine : Nat) (hparts : Parts source low word node past) :
    Lays source past (elementHead held node headLine) (Parts source low word) := by
  apply LaysAt.iterate lasting_parts hparts
  intro node now _ hnode
  have hturned : Lasting (Turned (Parts source low word) (Parts source low word)) :=
    lasting_turned lasting_parts lasting_parts
  have hendowed {token : Token} {p : Parser Node}
      (hp : LaysAt source (· = token) now p (EndowedBehind source token node)) :
      LaysAt source (· = token) now (do return .yield (← p))
        (Turned (Parts source low word) (Parts source low word)) :=
    hp.bind fun value next hnext hvalue =>
      hturned.lays (hvalue.1.parts (lasting_parts node now next hnext hnode))
  apply LaysAt.current
  rintro token -
  refine .ite (fun _ => hturned.lays hnode) fun _ => ?_
  split
  case h_9 hkind => exact hendowed (laysAt_attachDirective hheld false node hkind)
  case h_10 hkind =>
    apply LaysAt.rest (resting_peekKind 1)
    intro _
    refine .ite (fun _ => hendowed ?_) fun _ => hturned.lays hnode
    exact laysAt_property node (isLayout_of_identifier hkind) (by simp [hkind])
  case h_11 =>
    exact .before (resting_unexpected _).steady fun _ =>
      .before (steady_skipHead headLine) fun _ => hturned.lays hnode
  all_goals exact hturned.lays hnode

/-! ## Elements -/

theorem lays_elementBody (hparts : Parts source low word node past) :
    Lays source past (elementBody held node) (Parts source low word) := by
  apply LaysAt.before resting_get.steady
  intro now
  apply LaysAt.before (resting_check .newline).steady
  intro _
  apply LaysAt.before (resting_peekKind 1).steady
  intro _
  apply LaysAt.before (resting_check .leftBrace).steady
  intro _
  refine .ite (fun _ => ?_) fun _ => .ite (fun _ => ?_) fun _ => lasting_parts.lays hparts
  · exact .braced lasting_parts hparts fun node _ _ hnode => lays_bodyItem hheld hnode
  · exact .before steady_advance fun _ => .before steady_advance fun _ =>
      .before (resting_use .indentation).steady fun _ => lays_indentedBody hheld hparts

omit hheld in
/-- What is made of a node without adding to what it holds. -/
theorem Parts.lays_same {p : Parser Node} (hparts : Parts source low word node past)
    (hp : ∀ {bound depth}, Makes bound depth past p fun value _ => SameParts node value) :
    Lays source past p (Parts source low word) := by
  have hlays : Lays source past p fun value _ => SameParts node value := laysAt_of_makes hp
  exact hlays.mono fun value now hnow hsame =>
    hsame.parts (lasting_parts node past now hnow hparts)

theorem lays_elementRest (headLine : Nat) (hparts : Parts source low word node past) :
    Lays source past (elementRest held node headLine) (Parts source low word) := by
  apply (hparts.lays_same (makes_elementName node headLine)).bind
  intro named now _ hnamed
  apply (hnamed.lays_same (makes_templateParams named)).bind
  intro parametrized now _ hparametrized
  apply (hparametrized.lays_same (makes_elementTemplate parametrized headLine)).bind
  intro templated now _ htemplated
  apply (lays_elementHead hheld headLine htemplated).bind
  intro headed now _ hheaded
  exact lays_elementBody hheld hheaded

omit hheld in
theorem Parts.lays_close {keyword : Token} (h : Parts source keyword.position word node past)
    (hread : HasRead source keyword past) (hplain : keyword.kind.isLayout = false)
    (hword : word = keyword.text) :
    Lays source past (close node keyword.position) (Placed source keyword) := by
  apply laysAt_close
  intro now hnow
  have hnode := lasting_parts node past now hnow h
  refine hnode.placed (hread.reaches hnow) hplain fun _ => .inl ?_
  rw [hnode.keyword, hword]

omit hheld in
/-- An element of a kind behind its keyword, with what is read of it one level deeper. -/
theorem lays_opened {kind : NodeKind} {keyword : Token} (body : Node → Parser Node)
    (hread : HasRead source keyword past) (hplain : keyword.kind.isLayout = false)
    (hword : kind.keyword = keyword.text)
    (hbody : ∀ {now node}, Parts source keyword.position kind.keyword node now →
      Lays source now (body node) (Parts source keyword.position kind.keyword)) :
    Lays source past (deeper (refuseElement (Node.ofKind kind default))
      (body (Node.ofKind kind default)) >>= fun node => close node keyword.position)
      (Placed source keyword) := by
  have hstart : Parts source keyword.position kind.keyword (Node.ofKind kind default) past :=
    parts_ofKind kind default (hread.passed hplain)
  have hdeeper : Lays source past (deeper (refuseElement (Node.ofKind kind default))
      (body (Node.ofKind kind default))) (Parts source keyword.position kind.keyword) :=
    .deeper lasting_parts (.before steady_skipElement fun _ => lasting_parts.lays hstart)
      (hbody hstart)
  apply hdeeper.bind
  intro node now hnow hnode
  exact hnode.lays_close (hread.reaches hnow) hplain hword

theorem laysAt_genericElement (kind : NodeKind) (hkind : token.kind = .identifier)
    (hword : kind.keyword = token.text) :
    LaysAt source (· = token) past (genericElement held kind) (Placed source token) := by
  have hplain := isLayout_of_identifier hkind
  apply LaysAt.current
  rintro keyword rfl
  apply LaysAt.advance hplain (by simp [hkind])
  intro now _ hread
  exact lays_opened (elementRest held · keyword.line) hread hplain hword
    fun hparts => lays_elementRest hheld keyword.line hparts

/-! ## Exported elements -/

omit hheld in
/-- What is read behind `export`: an element, or a fragment in its place. -/
def Exported (source : List Char) (low : Position) (node : Node) (state : State) : Prop :=
  Parts source low node.keyword node state ∧ (node.isFragment = false → node.exported = true)

omit hheld in
theorem lasting_exported : Lasting (Exported source low) :=
  fun node state next hreaches h => ⟨lasting_parts node state next hreaches h.1, h.2⟩

/-- The element behind `export` is closed once more, from there on. -/
theorem laysAt_exportedRest {mark : Token} (hread : HasRead source mark past)
    (hplain : mark.kind.isLayout = false) (hword : mark.text = "export") :
    LaysAt source (·.kind = .identifier) past
      (deeper (refuseElement (.fragment [] default)) (do
        return { ← held.element with exported := true }) >>= fun node => close node mark.position)
      (Placed source mark) := by
  have hbegun : Passed source mark.position past := hread.passed hplain
  have hdeeper : LaysAt source (·.kind = .identifier) past
      (deeper (refuseElement (.fragment [] default)) do
        return { ← held.element with exported := true }) (Exported source mark.position) := by
    apply LaysAt.deeper lasting_exported
    · refine .before steady_skipElement fun _ => lasting_exported.lays ⟨?_, ?_⟩
      · exact parts_ofKind .fragment default hbegun
      · exact fun hkind => nomatch hkind
    · apply LaysAt.each
      intro token hkind hheads
      apply (hheld.element past token hkind).bind
      intro node now hnow hnode
      have hparts : Parts source mark.position node.keyword node now :=
        hnode.parts (hbegun.reaches hnow) (hheads _ hbegun)
      have hsame : SameParts node { node with exported := true } := ⟨rfl, rfl, rfl⟩
      exact lasting_exported.lays ⟨hsame.parts hparts, fun _ => rfl⟩
  apply hdeeper.bind
  rintro node now hnow ⟨hparts, hexported⟩
  apply laysAt_close
  intro last hlast
  have hparts := lasting_parts node now last hlast hparts
  exact hparts.placed (hread.reaches (hnow.trans hlast)) hplain fun hkind =>
    .inr ⟨hexported hkind, hword⟩

theorem leads_exported {options : ParseOptions} (hstands : Stands source state)
    (hkind : state.token.kind = .identifier) (hword : state.token.text = "export")
    (hnext : (state.tokenAt 1).kind = .identifier) :
    Leads (exported held) ⟨source, options⟩ state
      (Laid source state (Placed source state.token)) := by
  -- Only the current token is kept in view: the word behind `export` is looked up in the state.
  have hplain := isLayout_of_identifier hkind
  have hkeeps := advance_keeps hstands.ended
  have hread : HasRead source state.token state.advance :=
    hstands.hasRead_advance hplain (by simp [hkind])
  rw [exported, startPosition, bind_assoc]
  refine leads_current hstands.ended ?_
  rw [pure_bind]
  refine leads_advance hstands.ended ?_
  have hrest := laysAt_exportedRest hheld hread hplain hword options state.advance
    (hstands.keeps hkeeps) .refl
  rw [advance_token hstands.ended hkind] at hrest
  exact (hrest hnext).after hkeeps.reaches

/-! ## Functions -/

omit hheld in
theorem laysAt_function (hkind : token.kind = .identifier) (hword : token.text = "function") :
    LaysAt source (· = token) past function (Placed source token) := by
  have hplain := isLayout_of_identifier hkind
  apply LaysAt.startPosition
  rintro keyword rfl
  apply LaysAt.advance hplain (by simp [hkind])
  intro now _ hread
  have hclose {last : State} (name : Option String) (params : List String) (body : String)
      (hlast : Reaches now last) :
      Lays source last
        (close { Node.ofKind (.function params body) default with name := name } keyword.position)
        (Placed source keyword) := by
    have hread := hread.reaches hlast
    have hsame : SameParts (Node.ofKind (.function params body) default)
        { Node.ofKind (.function params body) default with name := name } := ⟨rfl, rfl, rfl⟩
    have hparts := parts_ofKind (.function params body) default (hread.passed hplain)
    exact (hsame.parts hparts).lays_close hread hplain hword.symm
  apply LaysAt.before (resting_use .logic).steady
  intro _
  apply LaysAt.before (steady_expectName _)
  intro found
  cases found with
  | none => exact .before steady_synchronize fun _ => hclose none [] "" .refl
  | some name =>
      exact .before steady_paramList fun params => .before steady_blockText fun body =>
        hclose (some name) params body .refl

/-! ## Logic and state machines -/

theorem lays_logicRest (headLine : Nat) (hparts : Parts source low "logic" node past) :
    Lays source past (logicRest held node headLine) (Parts source low "logic") := by
  apply (hparts.lays_same (makes_elementName node headLine)).bind
  intro named now _ hnamed
  have hlogic {value : Node} (block : LogicBlock) {last : State}
      (hvalue : Parts source low "logic" value last) :
      Lays source last (pure { value with kind := .logic block }) (Parts source low "logic") :=
    lasting_parts.lays ⟨hvalue.begun, hvalue.row, hvalue.inside, hvalue.directives, rfl⟩
  apply LaysAt.before (resting_check .leftBrace).steady
  intro _
  apply LaysAt.ite
  · intro _
    have hlasting : Lasting fun (found : Node × LogicBlock) now =>
        Parts source low "logic" found.1 now :=
      lasting_parts.comap Prod.fst
    have hblock : Lays source now (braced (named, LogicBlock.empty) (logicTurn held))
        fun found state => Parts source low "logic" found.1 state := by
      refine .braced hlasting hnamed ?_
      rintro ⟨node, block⟩ now - hnode
      apply LaysAt.currentKind
      rintro token -
      split
      · exact .before (steady_logicItem block) fun _ => hlasting.lays hnode
      next hkind =>
        apply (laysAt_attachDirective hheld true node hkind).bind
        intro value next hnext hvalue
        exact hlasting.lays (hvalue.1.parts (lasting_parts node now next hnext hnode))
      · exact .before (resting_unexpected _).steady fun _ => .before steady_synchronize fun _ =>
          hlasting.lays hnode
    exact hblock.bind fun found next _ hfound => hlogic found.2 hfound
  · intro _
    exact .before (resting_unexpected _).steady fun _ => .before steady_synchronize fun _ =>
      hlogic .empty hnamed

theorem laysAt_logicElement (hkind : token.kind = .identifier) (hword : token.text = "logic") :
    LaysAt source (· = token) past (logicElement held) (Placed source token) := by
  have hplain := isLayout_of_identifier hkind
  apply LaysAt.current
  rintro keyword rfl
  apply LaysAt.advance hplain (by simp [hkind])
  intro now _ hread
  apply LaysAt.before (resting_use .logic).steady
  intro _
  have hword : (NodeKind.logic .empty).keyword = keyword.text := hword.symm
  exact lays_opened (logicRest held · keyword.line) hread hplain hword
    fun hparts => lays_logicRest hheld keyword.line hparts

theorem lays_machineItem {found : Node × StateMachine}
    (hparts : Parts source low word found.1 past) :
    Lays source past (machineItem held found) fun found state =>
      Parts source low word found.1 state := by
  obtain ⟨node, machine⟩ := found
  have hlasting : Lasting fun (found : Node × StateMachine) now =>
      Parts source low word found.1 now :=
    lasting_parts.comap Prod.fst
  have hsame (machine : StateMachine) : Lays source past (pure (node, machine))
      fun found state => Parts source low word found.1 state :=
    hlasting.lays hparts
  have hendowed {token : Token} {p : Parser Node}
      (hp : LaysAt source (· = token) past p (EndowedBehind source token node)) :
      LaysAt source (· = token) past (do return (← p, machine)) fun found state =>
        Parts source low word found.1 state :=
    hp.bind fun value next hnext hvalue =>
      hlasting.lays (hvalue.1.parts (lasting_parts node past next hnext hparts))
  apply LaysAt.current
  rintro token -
  apply LaysAt.rest (resting_peekKind 1)
  intro next
  apply LaysAt.ite
  · exact fun hat => hendowed (laysAt_attachDirective hheld true node hat)
  refine fun _ => .ite (fun _ => ?_) fun _ => .ite (fun _ => ?_) fun _ => .ite (fun _ => ?_)
    fun _ => .ite (fun _ => ?_) fun _ => .ite (fun hkey => ?_) fun _ => ?_
  · exact .before (steady_initialState machine) hsame
  · apply LaysAt.before steady_advance
    intro _
    apply LaysAt.before steady_machineState
    intro found
    cases found with
    | none => exact hsame machine
    | some state => exact hsame _
  · exact .before steady_advance fun _ => .before (Steady.braced steady_transitionItem) hsame
  · exact .before (steady_addTransition machine) hsame
  · exact hendowed (laysAt_property node (isLayout_of_identifier hkey.1) (by simp [hkey.1]))
  · exact .before (resting_unexpected _).steady fun _ => .before steady_synchronize fun _ =>
      hsame machine

theorem lays_machineRest (keyword : Token) (hparts : Parts source low "state_machine" node past) :
    Lays source past (machineRest held node keyword) (Parts source low "state_machine") := by
  apply (hparts.lays_same (makes_elementName node keyword.line)).bind
  intro named now _ hnamed
  have hlasting : Lasting fun (found : Node × StateMachine) now =>
      Parts source low "state_machine" found.1 now :=
    lasting_parts.comap Prod.fst
  have hbody : Lays source now (machineBody held named) fun found state =>
      Parts source low "state_machine" found.1 state := by
    apply LaysAt.before (resting_check .leftBrace).steady
    intro _
    apply LaysAt.ite
    · exact fun _ => .braced hlasting hnamed fun found _ _ hfound => lays_machineItem hheld hfound
    · exact fun _ => .before (resting_unexpected _).steady fun _ =>
        .before steady_synchronize fun _ => hlasting.lays hnamed
  apply hbody.bind
  intro found next _ hfound
  have hmachine : Lays source next (pure { found.1 with kind := .stateMachine found.2 })
      (Parts source low "state_machine") :=
    lasting_parts.lays ⟨hfound.begun, hfound.row, hfound.inside, hfound.directives, rfl⟩
  exact .ite (fun _ => .before (resting_report _).steady fun _ => hmachine) fun _ => hmachine

theorem laysAt_stateMachine (hkind : token.kind = .identifier)
    (hword : token.text = "state_machine") :
    LaysAt source (· = token) past (stateMachine held) (Placed source token) := by
  have hplain := isLayout_of_identifier hkind
  apply LaysAt.current
  rintro keyword rfl
  apply LaysAt.advance hplain (by simp [hkind])
  intro now _ hread
  apply LaysAt.before (resting_use .stateMachines).steady
  intro _
  have hword : (NodeKind.stateMachine .empty).keyword = keyword.text := hword.symm
  exact lays_opened (machineRest held · keyword) hread hplain hword
    fun hparts => lays_machineRest hheld keyword hparts

/-- An element starts at the word at hand. -/
theorem laysAt_elementWith (hkind : token.kind = .identifier) :
    LaysAt source (· = token) past (elementWith held) (Placed source token) := by
  rintro options state hstands hpast rfl
  have hat {p : Parser Node} (hp : LaysAt source (· = state.token) past p
      (Placed source state.token)) :
      Leads p ⟨source, options⟩ state (Laid source state (Placed source state.token)) :=
    hp options state hstands hpast rfl
  have hgeneric (kind : NodeKind) (hword : kind.keyword = state.token.text) :
      LaysAt source (· = state.token) past (genericElement held kind)
        (Placed source state.token) :=
    laysAt_genericElement hheld kind hkind hword
  have hpeek : Returns (peekKind 1) ⟨source, options⟩ state fun kind next =>
      kind = (state.tokenAt 1).kind ∧ next = state :=
    (returns_peekKind hstands.ended).mpr ⟨rfl, rfl⟩
  refine leads_current hstands.ended (hpeek.leads.bind ?_)
  rintro _ _ ⟨rfl, rfl⟩
  refine .ite (fun hword => ?_) fun _ => .ite (fun hword => ?_) fun _ => .ite (fun hword => ?_)
    fun _ => .ite (fun hword => ?_) fun _ => .ite (fun hword => ?_) fun _ =>
      .ite (fun hword => ?_) fun _ => .ite (fun hword => ?_) fun _ => ?_
  · simp only [Bool.and_eq_true, decide_eq_true_eq] at hword
    exact leads_exported hheld hstands hkind hword.1 hword.2
  · simp only [Bool.and_eq_true, decide_eq_true_eq] at hword
    exact hat (laysAt_function hkind hword.1)
  · exact hat (laysAt_logicElement hheld hkind hword)
  · exact hat (laysAt_stateMachine hheld hkind hword)
  · exact hat (.rest (resting_use .templates) fun _ => hgeneric (.template []) hword.symm)
  · exact hat (.rest (resting_use .environment) fun _ => hgeneric .environment hword.symm)
  · exact hat (hgeneric _ rfl)
  · exact hat (.rest (resting_checkKeyword _) fun _ => hgeneric _ rfl)

end

end Parser
end SceneLang
