import SceneLang.Proofs.Origin.Elements

/-!
# What is read of directives

The place of a directive is its mark with its name.  The elements in its bodies are read as those
of other bodies are, and most directives have none.
-/

namespace SceneLang
namespace Parser

variable {source : List Char} {tokens : List Token} {node : Node}

/-! ## Conditions -/

theorem faithful_conditionText : Faithful source tokens conditionText := by
  have hskip : Faithful source tokens skipCondition :=
    faithful_skipUntil (faithful_currentKind.bind fun _ => .pure trivial)
  apply tells_current.bind
  intro token _
  exact (faithful_valueOr hskip).bind fun _ => (faithful_setValueFailed false).bind fun _ =>
    faithful_previousSpan.bind fun _ => (faithful_sliceBetween _ _).bind fun _ => .pure trivial

theorem faithful_elseAhead : Faithful source tokens elseAhead := by
  apply tells_get.bind
  intro state _
  split
  · exact .throw
  · split
    · exact .throw
    · exact .pure trivial

/-! ## Control flow -/

section

variable {held : Held} (hheld : FaithfulHeld source tokens held)
include hheld

theorem tells_controlBody : Tells source tokens (controlBody held) fun nodes =>
    ∀ node ∈ nodes, node.Templated tokens := by
  have hitem (nodes : List Node) (h : ∀ node ∈ nodes, node.Templated tokens) :
      Tells source tokens (controlItem held nodes) fun nodes =>
        ∀ node ∈ nodes, node.Templated tokens := by
    apply faithful_startPosition.bind
    intro start
    apply (tells_bodyItem hheld (Node.templated_ofKind tokens .fragment default rfl)).bind
    intro item hvalue
    dsimp only
    split
    next child hone _ =>
      have hchild := (Node.templated_iff.mp hvalue).2.2 child (hone ▸ List.mem_cons_self)
      exact .pure (List.forall_mem_cons.mpr ⟨hchild, h⟩)
    next =>
      refine .ite ((tells_close hvalue start).bind fun _ hclosed => ?_) (.pure h)
      exact .pure (List.forall_mem_cons.mpr ⟨hclosed, h⟩)
  apply (tells_braced (List.forall_mem_nil _) hitem).bind
  exact fun nodes hnodes => .pure fun node hmem => hnodes node (List.mem_reverse.mp hmem)

theorem tells_loop (form : LoopForm) :
    Tells source tokens (loop held form) (Directive.Templated tokens) := by
  have hvariable : Faithful source tokens loopVariable := by
    apply tells_current.bind
    intro token _
    exact .ite (faithful_advance.bind fun _ => .pure trivial)
      ((faithful_unexpected _).bind fun _ => .pure trivial)
  have hrest (item : String) : Tells source tokens (do
      let iterable ← conditionText
      return Directive.loop form item iterable (← controlBody held))
      (Directive.Templated tokens) :=
    faithful_conditionText.bind fun _ => (tells_controlBody hheld).bind fun _ hbody =>
      .pure (Directive.templated_of_body rfl hbody)
  apply (faithful_use .controlFlow).bind
  intro _
  apply hvariable.bind
  intro item
  apply tells_current.bind
  intro token _
  exact .ite (faithful_advance.bind fun _ => hrest item)
    ((faithful_unexpected _).bind fun _ => hrest item)

theorem tells_elseBranch (start : Position) :
    Tells source tokens (elseBranch held start) fun nodes =>
      ∀ node ∈ nodes, node.Templated tokens := by
  have hclose {holder : Node} (h : holder.Templated tokens) :
      Tells source tokens (do return [← close holder start]) fun nodes =>
        ∀ node ∈ nodes, node.Templated tokens :=
    (tells_close h start).bind fun _ hclosed => .pure (List.forall_mem_singleton.mpr hclosed)
  have hstart := Node.templated_ofKind tokens .fragment default rfl
  apply tells_current.bind
  intro token _
  apply (tells_peek 1).bind
  intro next _
  refine .ite ?_ (.ite ?_ (tells_controlBody hheld))
  · exact (tells_attachDirective hheld true hstart).bind fun holder hholder => hclose hholder
  · exact faithful_advance.bind fun _ => hheld.conditional.bind fun _ hdirective =>
      hclose (hstart.attach hdirective)

theorem tells_conditionalWith :
    Tells source tokens (conditionalWith held) (Directive.Templated tokens) := by
  have hskip : Faithful source tokens skipNewlines :=
    faithful_skipUntil ((faithful_check .newline).bind fun _ => .pure trivial)
  apply (faithful_use .controlFlow).bind
  intro _
  apply faithful_conditionText.bind
  intro condition
  apply (tells_controlBody hheld).bind
  intro body hbody
  apply faithful_elseAhead.bind
  intro ahead
  refine .ite (hskip.bind fun _ => faithful_startPosition.bind fun start => ?_)
    (.pure (Directive.templated_of_body rfl hbody))
  refine faithful_advance.bind fun _ => faithful_advance.bind fun _ =>
    (tells_elseBranch hheld start).bind fun branch hbranch => .pure ?_
  exact List.forall_mem_cons.mpr ⟨hbody, List.forall_mem_singleton.mpr hbranch⟩

end

/-! ## Imports -/

/-- A directive that steers nothing holds no nodes. -/
theorem templated_plain {directive : Directive} (h : directive.bodies = []) :
    ∀ found ∈ some directive, found.Templated tokens :=
  fun _ hfound => Option.some.inj hfound ▸ Directive.templated_of_bodies h

theorem tells_importDirective : Tells source tokens importDirective fun found =>
    ∀ directive ∈ found, directive.Templated tokens := by
  have hsource : Faithful source tokens importSource := by
    apply tells_current.bind
    intro token _
    refine .ite (faithful_advance.bind fun _ => tells_current.bind fun path _ => ?_)
      ((faithful_unexpected _).bind fun _ => .pure trivial)
    exact .ite (faithful_advance.bind fun _ => .pure trivial)
      ((faithful_unexpected _).bind fun _ => .pure trivial)
  have halias : Faithful source tokens importAlias := by
    apply tells_current.bind
    intro token _
    exact .ite (faithful_advance.bind fun _ => faithful_expectName _) (.pure trivial)
  have hname (names : List ImportName) : Faithful source tokens (importName names) := by
    apply tells_current.bind
    intro token _
    exact .ite (faithful_advance.bind fun _ => halias.bind fun _ => .pure trivial)
      ((faithful_unexpected _).bind fun _ => faithful_advance.bind fun _ => .pure trivial)
  have hdecl : Faithful source tokens importDecl := by
    apply (faithful_use .imports).bind
    intro _
    apply tells_current.bind
    intro token _
    split
    · exact faithful_advance.bind fun _ => halias.bind fun _ => .pure trivial
    · exact (faithful_braced hname).bind fun _ => hsource.bind fun _ => .pure trivial
    · exact faithful_advance.bind fun _ => hsource.bind fun _ => .pure trivial
    · exact (faithful_unexpected _).bind fun _ => .pure trivial
  apply hdecl.bind
  intro found
  cases found with
  | none => exact .pure fun _ hfound => nomatch hfound
  | some decl =>
      refine Faithful.bind (faithful_modify fun _ h => ?_) fun _ => .pure (templated_plain rfl)
      exact ⟨h.ahead, h.previous, h.errors, h.warnings⟩

/-! ## Directives -/

theorem faithful_reportUnknown {name : Token} (hmem : name ∈ tokens) :
    Faithful source tokens (reportUnknown name) := by
  apply tells_read.bind
  intro context _
  dsimp only
  have hstems : Stems source tokens
      (if Vocabulary.isTrait name.text || !(suggest name.text Vocabulary.traits).isEmpty then
        Diagnostic.unknownTrait context.options.strict name.text name.span name.position
      else
        Diagnostic.unknownDirective context.options.strict name.text name.span name.position) := by
    split
    · exact .trait _ hmem
    · exact .directive _ hmem
  exact .ite (faithful_report (.noted _ hstems))
    (.ite (faithful_report (.noted _ hstems)) (faithful_report hstems))

theorem tells_traitDirective {name : Token} (hmem : name ∈ tokens) (allowBody : Bool) :
    Tells source tokens (traitDirective name allowBody) fun found =>
      ∀ directive ∈ found, directive.Templated tokens := by
  apply tells_read.bind
  intro context _
  apply (faithful_directiveConfig allowBody).bind
  intro config
  refine .ite ((faithful_use .traits).bind fun _ => .pure (templated_plain rfl))
    ((faithful_reportUnknown hmem).bind fun _ => .pure ?_)
  split
  · exact fun _ hfound => nomatch hfound
  · exact templated_plain rfl

theorem tells_lifecycle (hook : String) :
    Tells source tokens (lifecycle hook) fun directive => directive.bodies = [] := by
  apply faithful_paramList.bind
  intro params
  apply (faithful_check .leftBrace).bind
  intro _
  exact .ite (faithful_blockText.bind fun _ => .pure rfl) (.pure rfl)

section

variable {held : Held} (hheld : FaithfulHeld source tokens held)
include hheld

theorem tells_directiveNamed {name : Token} {span : Span} {position : Position}
    (hmem : name ∈ tokens) (hsite : Site tokens span position) (allowBody : Bool) :
    Tells source tokens (directiveNamed held name span position allowBody) fun found =>
      ∀ directive ∈ found, directive.Templated tokens := by
  have hsteers {p : Parser Directive} (hp : Tells source tokens p (Directive.Templated tokens)) :
      Tells source tokens (do return some (← p)) fun found =>
        ∀ directive ∈ found, directive.Templated tokens :=
    hp.bind fun _ hdirective => .pure fun _ hfound => Option.some.inj hfound ▸ hdirective
  have hnone : ∀ directive ∈ (none : Option Directive), directive.Templated tokens :=
    fun _ hfound => nomatch hfound
  have hconfig (allowBody : Bool) {f : TraitConfig → Directive}
      (hf : ∀ config, (f config).bodies = []) :
      Tells source tokens (directiveConfig allowBody >>= fun config => pure (some (f config)))
        fun found => ∀ directive ∈ found, directive.Templated tokens :=
    (faithful_directiveConfig allowBody).bind fun config => .pure (templated_plain (hf config))
  unfold directiveNamed
  dsimp only
  refine .ite ?_ (.ite ?_ (.ite ?_ (.ite ?_ (.ite ?_ ?_))))
  · exact hsteers (tells_loop hheld .plain)
  · exact hsteers (tells_loop hheld .each)
  · exact (faithful_use .controlFlow).bind fun _ => faithful_conditionText.bind fun _ =>
      (tells_controlBody hheld).bind fun _ hbody => .pure fun _ hfound =>
        Option.some.inj hfound ▸ Directive.templated_of_body rfl hbody
  · exact hsteers (tells_conditionalWith hheld)
  · apply (faithful_report (.plain .error .unexpectedToken _ hsite)).bind
    intro _
    apply (faithful_check .leftBrace).bind
    intro _
    exact .ite (faithful_skipBalanced.bind fun _ => .pure hnone) (.pure hnone)
  apply tells_read.bind
  intro context _
  refine .ite tells_importDirective (.ite ?_ (.ite ?_ ?_))
  · exact hconfig true fun _ => rfl
  · exact hconfig true fun _ => rfl
  split
  · exact hconfig allowBody fun _ => rfl
  split
  · exact hconfig allowBody fun _ => rfl
  exact .ite ((tells_lifecycle name.text).bind fun _ hbodies => .pure (templated_plain hbodies))
    (tells_traitDirective hmem allowBody)

theorem tells_directiveWith (allowBody : Bool) :
    Tells source tokens (directiveWith held allowBody) fun found =>
      ∀ placed ∈ found, placed.Grounded tokens := by
  apply tells_marked
  intro mark name hmark hname hbehind
  have hsite : Site tokens (mark.span.merge name.span) mark.position :=
    .directive hmark hname hbehind
  refine .ite (faithful_advance.bind fun _ => ?_) ((faithful_unexpected _).bind fun _ => ?_)
  · apply (tells_directiveNamed hheld hname hsite allowBody).bind
    intro found hfound
    refine .pure fun placed hmem => ?_
    obtain ⟨directive, hdirective, rfl⟩ := Option.map_eq_some_iff.mp hmem
    exact ⟨hsite, hfound directive hdirective⟩
  · exact .pure fun _ hmem => nomatch hmem

end

theorem faithfulHeld_level (levels : Nat) : FaithfulHeld source tokens (level levels) := by
  induction levels with
  | zero => exact ⟨.throw, fun _ => .throw, .throw⟩
  | succ levels ih => exact ⟨tells_elementWith ih, tells_directiveWith ih, tells_conditionalWith ih⟩

end Parser
end SceneLang
