import SceneLang.Proofs.Depth.Directives
import SceneLang.Proofs.Place.Elements

/-!
# Where lies what directives hold

The items of the body of a directive are read one behind the other, so that the nodes made of them
are apart.  What is not an element by itself is held by a fragment that starts at its first token.
-/

namespace SceneLang
namespace Parser

variable {source : List Char} {past state : State} {token : Token} {node value : Node}

section

variable {held : Held} (hheld : LaidHeld source held)
include hheld

omit hheld in
/-- Without a child, what an item has added to an empty fragment lies in its directives. -/
theorem Endowed.of_fragment (h : Endowed source (.fragment [] default) value) :
    value.kind = .fragment ∧ value.children = [] ∧
      ∀ directive ∈ value.directives, directive.Whole source :=
  ⟨h.kind, h.children, fun directive hmem =>
    (h.directives directive hmem).resolve_left List.not_mem_nil⟩

/-- The nodes of a body are collected in reverse. -/
theorem lays_controlItem {nodes : List Node} (hnodes : Row source nodes.reverse past) :
    Lays source past (controlItem held nodes) fun nodes state =>
      Row source nodes.reverse state := by
  have hlasting : Lasting fun (nodes : List Node) state => Row source nodes.reverse state :=
    lasting_row.comap List.reverse
  apply LaysAt.each
  intro token _ hheads
  apply LaysAt.startPosition
  rintro first rfl
  have hlonger {node : Node} {now : State} (hnow : Reaches past now)
      (hnode : Placed source first node now) : Row source (node :: nodes).reverse now := by
    rw [List.reverse_cons]
    exact hnodes.concat hheads hnow hnode
  apply (laysAt_bodyItem hheld (.fragment [] default)).bind
  intro item now hnow hitem
  have hnodes : Row source nodes.reverse now := lasting_row _ past now hnow hnodes
  obtain ⟨child, rfl, hchild⟩ | rfl | ⟨hendowed, hpassed⟩ := hitem
  · exact hlasting.lays (hlonger hnow hchild)
  · exact hlasting.lays hnodes
  · obtain ⟨hkind, hchildren, hdirectives⟩ := hendowed.of_fragment
    dsimp only
    split
    next hone _ =>
      rw [hchildren] at hone
      cases hone
    next =>
      refine .ite (fun _ => ?_) fun _ => hlasting.lays hnodes
      have hclose : Lays source now (close item first.position) (Placed source first) :=
        laysAt_close fun last hlast =>
          (hpassed.reaches hlast).placed_fragment hkind hchildren hdirectives
      apply hclose.bind
      intro node last hlast hnode
      exact hlasting.lays (hlonger (hnow.trans hlast) hnode)

theorem lays_controlBody :
    Lays source past (controlBody held) fun nodes _ => Node.WholeAll source nodes := by
  have hlasting : Lasting fun (nodes : List Node) state => Row source nodes.reverse state :=
    lasting_row.comap List.reverse
  have hbody : Lays source past (braced [] (controlItem held)) fun nodes state =>
      Row source nodes.reverse state :=
    .braced hlasting row_nil fun _ _ _ hnodes => lays_controlItem hheld hnodes
  apply hbody.bind
  intro nodes now _ hnodes
  exact .pure fun _ _ => hnodes.toWholeAll

theorem lays_loop (form : LoopForm) :
    Lays source past (loop held form) fun directive _ => directive.Whole source := by
  have hrest (item : String) : Lays source past (do
      let iterable ← conditionText
      return Directive.loop form item iterable (← controlBody held))
      fun directive _ => directive.Whole source := by
    apply LaysAt.before steady_conditionText
    intro iterable
    apply (lays_controlBody hheld).bind
    intro body now _ hbody
    exact .pure fun _ _ => List.forall_mem_singleton.mpr hbody
  apply LaysAt.before (resting_use .controlFlow).steady
  intro _
  apply LaysAt.before steady_loopVariable
  intro item
  apply LaysAt.before resting_current.steady
  intro token
  apply LaysAt.ite
  · exact fun _ => .before steady_advance fun _ => hrest item
  · exact fun _ => .before (resting_unexpected _).steady fun _ => hrest item

theorem lays_elseBranch (start : Position) :
    Lays source past (elseBranch held start) fun nodes _ => Node.WholeAll source nodes := by
  have hclose {holder : Node} {now : State}
      (hendowed : Endowed source (.fragment [] default) holder) :
      Lays source now (do return [← close holder start]) fun nodes _ =>
        Node.WholeAll source nodes := by
    -- The branch is a single node without children, wherever it ends.
    obtain ⟨hkind, hchildren, hdirectives⟩ := hendowed.of_fragment
    have hholder : Lays source now (close holder start) fun node _ => node.Whole source :=
      laysAt_close fun _ _ =>
        Node.whole_of_fragment hkind hchildren hdirectives (Position.le_max_right _ _)
    apply hholder.bind
    intro node _ _ hnode
    exact .pure fun _ _ => ⟨List.pairwise_singleton _ _, List.forall_mem_singleton.mpr hnode⟩
  apply LaysAt.current
  intro token _
  apply LaysAt.rest (resting_peek 1)
  intro next
  refine .ite (fun hif => ?_) fun _ => .ite (fun _ => ?_) fun _ => (lays_controlBody hheld).at
  · simp only [Bool.and_eq_true, decide_eq_true_eq] at hif
    exact (laysAt_attachDirective hheld true _ hif.1).bind fun holder _ _ hholder =>
      hclose hholder.1
  · apply LaysAt.before steady_advance
    intro _
    apply (hheld.conditional past).bind
    intro directive now _ hdirective
    exact hclose (endowed_attach hdirective)

theorem lays_conditionalWith :
    Lays source past (conditionalWith held) fun directive _ => directive.Whole source := by
  apply LaysAt.before (resting_use .controlFlow).steady
  intro _
  apply LaysAt.before steady_conditionText
  intro condition
  apply (lays_controlBody hheld).bind
  intro body now _ hbody
  apply LaysAt.before resting_elseAhead.steady
  intro ahead
  apply LaysAt.ite
  · intro _
    apply LaysAt.before steady_skipNewlines
    intro _
    apply LaysAt.before resting_startPosition.steady
    intro start
    apply LaysAt.before steady_advance
    intro _
    apply LaysAt.before steady_advance
    intro _
    apply (lays_elseBranch hheld start).bind
    intro elseBody next _ helse
    exact .pure fun _ _ => List.forall_mem_cons.mpr ⟨hbody, List.forall_mem_singleton.mpr helse⟩
  · exact fun _ => .pure fun _ _ => List.forall_mem_singleton.mpr hbody

/-! ## Directives -/

omit hheld in
theorem whole_of_empty {directive : Directive} (h : directive.bodies = []) :
    directive.Whole source := by
  rw [Directive.Whole, h]
  exact List.forall_mem_nil _

/-- A directive that is found, if any is, lies as it should. -/
def WholeDirective (source : List Char) (found : Option Directive) : Prop :=
  ∀ directive ∈ found, directive.Whole source

omit hheld in
theorem wholeDirective_some {directive : Directive} (h : directive.Whole source) :
    WholeDirective source (some directive) :=
  fun _ hmem => Option.some.inj hmem ▸ h

omit hheld in
theorem wholeDirective_none : WholeDirective source none :=
  fun _ hmem => nomatch hmem

omit hheld in
theorem lays_importDirective :
    Lays source past importDirective fun found _ => WholeDirective source found := by
  apply LaysAt.before steady_importDecl
  intro found
  cases found with
  | none => exact .pure fun _ _ => wholeDirective_none
  | some decl =>
      have hmodify {bound depth : Nat} : Steady bound depth (modify fun state : State =>
          { state with imports := state.imports ++ [decl] }) :=
        Resting.steady (.modify fun state => ⟨rfl, rfl, rfl, .single (.imports state decl)⟩)
      exact .before hmodify fun _ => .pure fun _ _ => wholeDirective_some (whole_of_empty rfl)

omit hheld in
theorem lays_traitDirective (name : Token) (allowBody : Bool) :
    Lays source past (traitDirective name allowBody) fun found _ =>
      WholeDirective source found := by
  apply LaysAt.before resting_read.steady
  intro context
  apply LaysAt.before (steady_directiveConfig allowBody)
  intro config
  apply LaysAt.ite
  · intro _
    apply LaysAt.before (resting_use .traits).steady
    intro _
    exact .pure fun _ _ => wholeDirective_some (whole_of_empty rfl)
  · intro _
    apply LaysAt.before (resting_reportUnknown name).steady
    intro _
    refine .pure fun _ _ => ?_
    split
    · exact wholeDirective_none
    · exact wholeDirective_some (whole_of_empty rfl)

omit hheld in
theorem lays_lifecycle (hook : String) :
    Lays source past (lifecycle hook) fun directive _ => directive.Whole source := by
  apply LaysAt.before steady_paramList
  intro params
  apply LaysAt.before (resting_check .leftBrace).steady
  intro _
  have hhook (body : String) : Lays source past (pure (Directive.lifecycle hook params body))
      fun directive _ => directive.Whole source :=
    .pure fun _ _ => whole_of_empty rfl
  exact .ite (fun _ => .before steady_blockText hhook) fun _ => hhook ""

theorem lays_directiveNamed (name : Token) (span : Span) (position : Position)
    (allowBody : Bool) :
    Lays source past (directiveNamed held name span position allowBody) fun found _ =>
      WholeDirective source found := by
  have hsome {p : Parser Directive}
      (hp : Lays source past p fun directive _ => directive.Whole source) :
      Lays source past (do return some (← p)) fun found _ => WholeDirective source found :=
    hp.bind fun directive _ _ hdirective => .pure fun _ _ => wholeDirective_some hdirective
  have hconfig (allowBody : Bool) (f : TraitConfig → Directive)
      (hf : ∀ config, (f config).bodies = []) :
      Lays source past (directiveConfig allowBody >>= fun config => pure (some (f config)))
        fun found _ => WholeDirective source found :=
    .before (steady_directiveConfig allowBody) fun config =>
      .pure fun _ _ => wholeDirective_some (whole_of_empty (hf config))
  have hnone : Lays source past (pure none) fun found _ => WholeDirective source found :=
    .pure fun _ _ => wholeDirective_none
  unfold directiveNamed
  dsimp only
  refine .ite (fun _ => ?_) fun _ => .ite (fun _ => ?_) fun _ => .ite (fun _ => ?_) fun _ =>
    .ite (fun _ => ?_) fun _ => .ite (fun _ => ?_) fun _ => ?_
  · exact hsome (lays_loop hheld .plain)
  · exact hsome (lays_loop hheld .each)
  · apply LaysAt.before (resting_use .controlFlow).steady
    intro _
    apply LaysAt.before steady_conditionText
    intro condition
    apply (lays_controlBody hheld).bind
    intro body now _ hbody
    exact .pure fun _ _ => wholeDirective_some (List.forall_mem_singleton.mpr hbody)
  · exact hsome (lays_conditionalWith hheld)
  · apply LaysAt.before (resting_report _).steady
    intro _
    apply LaysAt.before (resting_check .leftBrace).steady
    intro _
    exact .ite (fun _ => .before steady_skipBalanced fun _ => hnone) fun _ => hnone
  apply LaysAt.before resting_read.steady
  intro context
  refine .ite (fun _ => lays_importDirective) fun _ => .ite (fun _ => ?_) fun _ =>
    .ite (fun _ => ?_) fun _ => ?_
  · exact hconfig true (fun config => .state config.config) fun _ => rfl
  · exact hconfig true (fun config => .bindings config.config) fun _ => rfl
  split
  next which _ => exact hconfig allowBody (.setting which) fun _ => rfl
  split
  next which _ =>
    exact hconfig allowBody (fun config => .topic which config.subject? config) fun _ => rfl
  apply LaysAt.ite
  · exact fun _ => hsome (lays_lifecycle name.text)
  · exact fun _ => lays_traitDirective name allowBody

theorem laysAt_directiveWith (allowBody : Bool) (hat : token.kind = .at) :
    LaysAt source (· = token) past (directiveWith held allowBody) fun found state =>
      WholeFound source found ∧ Passed source token.position state := by
  have hplain : token.kind.isLayout = false := by
    rw [hat]
    rfl
  apply LaysAt.current
  rintro mark rfl
  apply LaysAt.advance hplain (by simp [hat])
  intro now _ hread
  have hpassed := hread.passed hplain
  apply LaysAt.before resting_current.steady
  intro name
  apply LaysAt.ite
  · intro _
    apply LaysAt.before steady_advance
    intro _
    apply (lays_directiveNamed hheld name _ _ allowBody).bind
    intro found next hnext hfound
    refine .pure fun last hlast => ⟨fun placed hmem => ?_, hpassed.reaches (hnext.trans hlast)⟩
    obtain ⟨directive, hdirective, rfl⟩ := Option.map_eq_some_iff.mp hmem
    exact hfound directive hdirective
  · intro _
    apply LaysAt.before (resting_unexpected _).steady
    intro _
    exact .pure fun last hlast => ⟨fun _ hmem => (nomatch hmem), hpassed.reaches hlast⟩

end

theorem laidHeld_level (levels : Nat) : LaidHeld source (level levels) := by
  induction levels with
  | zero =>
      exact ⟨fun _ _ _ => laysAt_throw, fun _ _ _ _ => laysAt_throw, fun _ => laysAt_throw⟩
  | succ levels ih =>
      exact ⟨fun _ _ hkind => laysAt_elementWith ih hkind,
        fun _ _ allowBody hat => laysAt_directiveWith ih allowBody hat,
        fun _ => lays_conditionalWith ih⟩

end Parser
end SceneLang
