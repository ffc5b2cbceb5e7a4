import SceneLang.Proofs.Depth.Elements
import SceneLang.Proofs.Parser.Directives

/-!
# How deep lies what directives hold

The body of a directive that steers control flow takes no level: what it holds is read at the
nesting of the directive.  It is no higher than the nodes it holds, where these count as lying on
the level of the directive.
-/

namespace SceneLang
namespace Parser

variable {bound depth : Nat} {past state : State}

theorem nearDirective_of_nodes {directive : Directive} (hdepth : depth ≤ maxNesting)
    (hnodes : ∀ node ∈ directive.nodes, NearNode depth node state) :
    NearDirective depth directive state :=
  near_of_parts hdepth hnodes fun _ _ _ hparts => Directive.height_le.mpr hparts

/-- A fragment around directives is as near as they are. -/
theorem near_of_fragment {node : Node} (hdepth : depth ≤ maxNesting)
    (hkind : node.kind = .fragment) (hchildren : node.children = [])
    (hdirectives : ∀ directive ∈ node.directives, NearDirective depth directive state) :
    NearNode depth node state := by
  refine near_of_parts hdepth hdirectives fun own n hown hparts => ?_
  rw [Node.height_le, hkind, hown, hchildren]
  exact ⟨Nat.zero_le n, List.forall_mem_nil _, hparts⟩

/-- A list of nodes at the nesting. -/
def NearNodes (depth : Nat) (nodes : List Node) (state : State) : Prop :=
  ∀ node ∈ nodes, NearNode depth node state

theorem lasting_nearNodes : Lasting (NearNodes depth) :=
  lasting_nearNode.parts id

section

variable {held : Held} (hheld : NearHeld bound held)
include hheld

/-- An item that is an element stands in the body as it is, any other item holds no child. -/
theorem makes_controlItem {nodes : List Node} (hnodes : NearNodes depth nodes past) :
    Makes bound depth past (controlItem held nodes) (NearNodes depth) := by
  refine .of_depth_le fun hdepth => ?_
  apply resting_startPosition.steady.before
  intro start
  apply (makes_bodyItem hheld (.fragment [] default)).bind
  intro item now hnow hitem
  have hnodes : NearNodes depth nodes now := lasting_nearNodes nodes past now hnow hnodes
  obtain ⟨child, rfl, hchild⟩ | hdirected := hitem
  · exact lasting_nearNodes.makes (List.forall_mem_cons.mpr ⟨hchild, hnodes⟩)
  · have hdirectives (directive : Directive) (hmem : directive ∈ item.directives) :
        NearDirective depth directive now :=
      (hdirected.directives directive hmem).resolve_left List.not_mem_nil
    have hitem : NearNode depth item now :=
      near_of_fragment hdepth hdirected.kind hdirected.children hdirectives
    dsimp only
    split
    next hchildren _ =>
      rw [hdirected.children] at hchildren
      cases hchildren
    next =>
      refine .ite (fun _ => ?_) fun _ => lasting_nearNodes.makes hnodes
      apply (makes_close start hitem).bind
      intro node next hnext hnode
      have hnodes : NearNodes depth nodes next := lasting_nearNodes nodes now next hnext hnodes
      exact lasting_nearNodes.makes (List.forall_mem_cons.mpr ⟨hnode, hnodes⟩)

theorem makes_controlBody : Makes bound depth past (controlBody held) (NearNodes depth) := by
  have hbody : Makes bound depth past (braced [] (controlItem held)) (NearNodes depth) :=
    .braced lasting_nearNodes (List.forall_mem_nil _) fun _ _ _ hnodes =>
      makes_controlItem hheld hnodes
  apply hbody.bind
  intro nodes now _ hnodes
  exact lasting_nearNodes.makes fun node hmem => hnodes node (List.mem_reverse.mp hmem)

theorem makes_loop (form : LoopForm) :
    Makes bound depth past (loop held form) (NearDirective depth) := by
  refine .of_depth_le fun hdepth => ?_
  have hrest (item : String) : Makes bound depth past (do
      let iterable ← conditionText
      return Directive.loop form item iterable (← controlBody held)) (NearDirective depth) := by
    apply steady_conditionText.before
    intro iterable
    apply (makes_controlBody hheld).bind
    intro body now _ hbody
    exact lasting_nearDirective.makes (nearDirective_of_nodes hdepth hbody)
  apply (resting_use .controlFlow).steady.before
  intro _
  apply steady_loopVariable.before
  intro item
  apply resting_current.steady.before
  intro token
  apply Makes.ite
  · exact fun _ => steady_advance.before fun _ => hrest item
  · exact fun _ => (resting_unexpected _).steady.before fun _ => hrest item

theorem makes_elseBranch (start : Position) :
    Makes bound depth past (elseBranch held start) (NearNodes depth) := by
  refine .of_depth_le fun hdepth => ?_
  have hclose {holder : Node} {now : State}
      (hdirected : Directed depth (.fragment [] default) holder now) :
      Makes bound depth now (do return [← close holder start]) (NearNodes depth) := by
    have hdirectives (directive : Directive) (hmem : directive ∈ holder.directives) :
        NearDirective depth directive now :=
      (hdirected.directives directive hmem).resolve_left List.not_mem_nil
    have hholder : NearNode depth holder now :=
      near_of_fragment hdepth hdirected.kind hdirected.children hdirectives
    apply (makes_close start hholder).bind
    intro node next _ hnode
    exact lasting_nearNodes.makes (List.forall_mem_singleton.mpr hnode)
  apply resting_current.steady.before
  intro token
  apply (resting_peek 1).steady.before
  intro next
  refine .ite (fun _ => ?_) fun _ => .ite (fun _ => ?_) fun _ => makes_controlBody hheld
  · exact (makes_attachDirective hheld true _).bind fun holder _ _ hholder => hclose hholder
  · apply steady_advance.before
    intro _
    apply (hheld.conditional depth past).bind
    intro directive now _ hdirective
    exact hclose (directed_attach hdirective)

theorem makes_conditionalWith :
    Makes bound depth past (conditionalWith held) (NearDirective depth) := by
  refine .of_depth_le fun hdepth => ?_
  apply (resting_use .controlFlow).steady.before
  intro _
  apply steady_conditionText.before
  intro condition
  apply (makes_controlBody hheld).bind
  intro body now _ hbody
  apply resting_elseAhead.steady.before
  intro ahead
  apply Makes.ite
  · intro _
    apply steady_skipNewlines.before
    intro _
    apply resting_startPosition.steady.before
    intro start
    apply steady_advance.before
    intro _
    apply steady_advance.before
    intro _
    apply (makes_elseBranch hheld start).bind
    intro elseBody next hnext helse
    have hbody : NearNodes depth body next := lasting_nearNodes body now next hnext hbody
    apply lasting_nearDirective.makes
    exact nearDirective_of_nodes hdepth (List.forall_mem_append.mpr ⟨hbody, helse⟩)
  · intro _
    apply lasting_nearDirective.makes
    apply nearDirective_of_nodes hdepth
    rwa [Directive.nodes, Option.getD_none, List.append_nil]

/-! ## Directives -/

omit hheld in
theorem nearDirective_of_empty {directive : Directive} (hdepth : depth ≤ maxNesting)
    (hnodes : directive.nodes = []) : NearDirective depth directive state := by
  apply nearDirective_of_nodes hdepth
  rw [hnodes]
  exact List.forall_mem_nil _

/-- What is found, if anything is. -/
def NearFound (depth : Nat) (found : Option Directive) (state : State) : Prop :=
  ∀ directive ∈ found, NearDirective depth directive state

omit hheld in
theorem lasting_nearFound : Lasting (NearFound depth) :=
  fun _ _ _ hreaches h directive hmem => (h directive hmem).later hreaches

omit hheld in
theorem nearFound_some {directive : Directive} (h : NearDirective depth directive state) :
    NearFound depth (some directive) state :=
  fun _ hmem => Option.some.inj hmem ▸ h

omit hheld in
theorem nearFound_none : NearFound depth none state :=
  fun _ hmem => nomatch hmem

omit hheld in
theorem makes_importDirective (hdepth : depth ≤ maxNesting) :
    Makes bound depth past importDirective (NearFound depth) := by
  apply steady_importDecl.before
  intro found
  cases found with
  | none => exact lasting_nearFound.makes nearFound_none
  | some decl =>
      apply (resting_addImport decl).steady.before
      intro _
      exact lasting_nearFound.makes (nearFound_some (nearDirective_of_empty hdepth rfl))

omit hheld in
theorem makes_traitDirective (hdepth : depth ≤ maxNesting) (name : Token) (allowBody : Bool) :
    Makes bound depth past (traitDirective name allowBody) (NearFound depth) := by
  apply resting_read.steady.before
  intro context
  apply (steady_directiveConfig allowBody).before
  intro config
  apply Makes.ite
  · intro _
    apply (resting_use .traits).steady.before
    intro _
    exact lasting_nearFound.makes (nearFound_some (nearDirective_of_empty hdepth rfl))
  · intro _
    apply (resting_reportUnknown name).steady.before
    intro _
    apply lasting_nearFound.makes
    split
    · exact nearFound_none
    · exact nearFound_some (nearDirective_of_empty hdepth rfl)

omit hheld in
theorem makes_lifecycle (hdepth : depth ≤ maxNesting) (hook : String) :
    Makes bound depth past (lifecycle hook) (NearDirective depth) := by
  apply steady_paramList.before
  intro params
  apply (resting_check .leftBrace).steady.before
  intro _
  have hhook (body : String) :
      Makes bound depth past (pure (.lifecycle hook params body)) (NearDirective depth) :=
    lasting_nearDirective.makes (nearDirective_of_empty hdepth rfl)
  exact .ite (fun _ => steady_blockText.before hhook) fun _ => hhook ""

theorem makes_directiveNamed (name : Token) (span : Span) (position : Position)
    (allowBody : Bool) :
    Makes bound depth past (directiveNamed held name span position allowBody)
      (NearFound depth) := by
  refine .of_depth_le fun hdepth => ?_
  have hsome {p : Parser Directive} (hp : Makes bound depth past p (NearDirective depth)) :
      Makes bound depth past (do return some (← p)) (NearFound depth) :=
    hp.bind fun directive _ _ hdirective => lasting_nearFound.makes (nearFound_some hdirective)
  have hconfig (allowBody : Bool) (f : TraitConfig → Directive)
      (hf : ∀ config, (f config).nodes = []) :
      Makes bound depth past (directiveConfig allowBody >>= fun config => pure (some (f config)))
        (NearFound depth) :=
    (steady_directiveConfig allowBody).before fun config =>
      lasting_nearFound.makes (nearFound_some (nearDirective_of_empty hdepth (hf config)))
  have hnone : Makes bound depth past (pure none) (NearFound depth) :=
    lasting_nearFound.makes nearFound_none
  unfold directiveNamed
  dsimp only
  refine .ite (fun _ => ?_) fun _ => .ite (fun _ => ?_) fun _ => .ite (fun _ => ?_) fun _ =>
    .ite (fun _ => ?_) fun _ => .ite (fun _ => ?_) fun _ => ?_
  · exact hsome (makes_loop hheld .plain)
  · exact hsome (makes_loop hheld .each)
  · apply (resting_use .controlFlow).steady.before
    intro _
    apply steady_conditionText.before
    intro condition
    apply (makes_controlBody hheld).bind
    intro body now _ hbody
    exact lasting_nearFound.makes (nearFound_some (nearDirective_of_nodes hdepth hbody))
  · exact hsome (makes_conditionalWith hheld)
  · apply (resting_report _).steady.before
    intro _
    apply (resting_check .leftBrace).steady.before
    intro _
    exact .ite (fun _ => steady_skipBalanced.before fun _ => hnone) fun _ => hnone
  apply resting_read.steady.before
  intro context
  refine .ite (fun _ => makes_importDirective hdepth) fun _ => .ite (fun _ => ?_) fun _ =>
    .ite (fun _ => ?_) fun _ => ?_
  · exact hconfig true (fun config => .state config.config) fun _ => rfl
  · exact hconfig true (fun config => .bindings config.config) fun _ => rfl
  split
  next which _ => exact hconfig allowBody (.setting which) fun _ => rfl
  split
  next which _ =>
    exact hconfig allowBody (fun config => .topic which config.subject? config) fun _ => rfl
  apply Makes.ite
  · exact fun _ => hsome (makes_lifecycle hdepth name.text)
  · exact fun _ => makes_traitDirective hdepth name allowBody

theorem makes_directiveWith (allowBody : Bool) :
    Makes bound depth past (directiveWith held allowBody) fun found state =>
      ∀ placed ∈ found, NearDirective depth placed.directive state := by
  apply resting_current.steady.before
  intro mark
  apply steady_advance.before
  intro _
  apply resting_current.steady.before
  intro name
  apply Makes.ite
  · intro _
    apply steady_advance.before
    intro _
    apply (makes_directiveNamed hheld name _ _ allowBody).bind
    intro found now _ hfound
    refine .pure fun next hnext placed hmem => ?_
    obtain ⟨directive, hdirective, rfl⟩ := Option.map_eq_some_iff.mp hmem
    exact (hfound directive hdirective).later hnext
  · intro _
    apply (resting_unexpected _).steady.before
    intro _
    exact .pure fun _ _ _ hmem => nomatch hmem

end

theorem nearHeld_level (levels : Nat) : NearHeld bound (level levels) := by
  induction levels with
  | zero => exact ⟨fun _ _ => makes_throw, fun _ _ _ => makes_throw, fun _ _ => makes_throw⟩
  | succ levels ih =>
      exact ⟨fun _ _ => makes_elementWith ih, fun _ _ => makes_directiveWith ih,
        fun _ _ => makes_conditionalWith ih⟩

end Parser
end SceneLang
