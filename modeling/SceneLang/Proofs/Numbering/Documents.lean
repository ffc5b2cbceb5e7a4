import SceneLang.Proofs.Numbering.Elements
import SceneLang.Proofs.Shift.Documents

/-!
# Interpolations in directives and documents

A directive is built of its configuration or of the nodes in its body.  A condition is read as a
value as well, but only its text is kept, so that its interpolations are in the table and not in the
tree.  The elements of a text and the directives that stand alone are read beside each other, the
last ones in front.  At the end of a text the tree holds no interpolation twice, and the table holds
all that the tree does.
-/

namespace SceneLang

open Value (interpolations)

/-- The interpolations in a list of nodes. -/
def nodeParts (nodes : List Node) : List Interpolation :=
  nodes.flatMap Node.interpolations

namespace Directive

theorem interpolations_loop (form : LoopForm) (item iterable : String) (body : List Node) :
    (Directive.loop form item iterable body).interpolations = nodeParts body := by
  rw [Directive.interpolations, Node.interpolationsOfAll_eq, nodeParts]

theorem interpolations_whileLoop (condition : String) (body : List Node) :
    (Directive.whileLoop condition body).interpolations = nodeParts body := by
  rw [Directive.interpolations, Node.interpolationsOfAll_eq, nodeParts]

theorem interpolations_conditional (condition : String) (body : List Node)
    (elseBody : Option (List Node)) :
    (Directive.conditional condition body elseBody).interpolations =
      nodeParts body ++ optionParts nodeParts elseBody := by
  cases elseBody with
  | none =>
      rw [Directive.interpolations, Node.interpolationsOfAll_eq]
      exact (List.append_nil _).symm
  | some elseBody =>
      rw [Directive.interpolations, Node.interpolationsOfAll_eq, Node.interpolationsOfAll_eq]
      exact congrArg (nodeParts body ++ ·) (optionParts_some nodeParts elseBody).symm

end Directive

namespace Parser

section

variable {held : Held} (hheld : HeldBuilds held)
include hheld

/-! ## Control flow -/

theorem builds_controlItem (nodes : List Node) :
    Builds (nodeParts nodes) (controlItem held nodes) nodeParts := by
  have hitem : Builds [] (bodyItem held (.fragment [] default)) Node.interpolations := by
    have hfragment := builds_bodyItem hheld (.fragment [] default)
    rwa [Node.interpolations_fragment] at hfragment
  have hcons (item : Node) : Builds (nodeParts nodes ++ item.interpolations)
      (pure (item :: nodes)) nodeParts :=
    .pure fun one => Nat.le_of_eq (List.perm_append_comm.count_eq one)
  refine .before resting_startPosition.steady fun start => .read hitem fun item => ?_
  dsimp only
  split
  next child hchildren _ =>
    refine (hcons child).of_count_le fun one => ?_
    rw [List.count_append, List.count_append, Node.count_interpolations item, hchildren,
      List.flatMap_singleton]
    omega
  next =>
    refine .ite (fun _ => ?_) fun _ => ?_
    · exact .bind ((builds_close item start).behind _) hcons
    · refine .pure fun one => ?_
      rw [List.count_append]
      exact Nat.le_add_right _ _

theorem builds_controlBody : Builds [] (controlBody held) nodeParts := by
  have hloop : Builds (nodeParts []) (braced [] (controlItem held)) nodeParts :=
    .braced (builds_controlItem hheld)
  exact .bind hloop (.reverse Node.interpolations)

theorem builds_loop (form : LoopForm) : Builds [] (loop held form) Directive.interpolations := by
  have hrest (item : String) : Builds [] (do
      let iterable ← conditionText
      return Directive.loop form item iterable (← controlBody held)) Directive.interpolations :=
    .before steady_conditionText fun _ => .bind (builds_controlBody hheld) fun _ =>
      .give (Directive.interpolations_loop ..)
  refine .before (resting_use .controlFlow).steady fun _ => .before steady_loopVariable fun item =>
    .before resting_current.steady fun token => .ite (fun _ => ?_) fun _ => ?_
  · exact .before steady_advance fun _ => hrest item
  · exact .before (resting_unexpected _).steady fun _ => hrest item

theorem builds_elseBranch (start : Position) : Builds [] (elseBranch held start) nodeParts := by
  have hclose (holder : Node) :
      Builds holder.interpolations (do return [← close holder start]) nodeParts :=
    .bind (builds_close holder start) fun node => .give (List.flatMap_singleton _ node)
  refine .before resting_current.steady fun token => .before (resting_peek 1).steady fun next => ?_
  refine .ite (fun _ => ?_) fun _ => .ite (fun _ => ?_) fun _ => builds_controlBody hheld
  · have hholder := builds_attachDirective hheld true (.fragment [] default)
    rw [Node.interpolations_fragment] at hholder
    exact .bind hholder hclose
  · refine .before steady_advance fun _ => .bind hheld.conditional fun directive => ?_
    refine (hclose _).of_count_le fun one => ?_
    have hattach := (Node.fragment [] default).count_attach_le directive one
    rwa [Node.interpolations_fragment, List.count_nil, Nat.zero_add] at hattach

theorem builds_conditionalWith : Builds [] (conditionalWith held) Directive.interpolations := by
  refine .before (resting_use .controlFlow).steady fun _ => .before steady_conditionText
    fun condition => .bind (builds_controlBody hheld) fun body =>
      .before resting_elseAhead.steady fun _ => .ite (fun _ => ?_) fun _ => ?_
  · refine .before steady_skipNewlines fun _ => .before resting_startPosition.steady fun start =>
      .before steady_advance fun _ => .before steady_advance fun _ =>
        .read (builds_elseBranch hheld start) fun elseBody => .give ?_
    rw [Directive.interpolations_conditional, optionParts_some]
  · refine .give ?_
    rw [Directive.interpolations_conditional]
    exact List.append_nil _

/-! ## Directives -/

omit hheld in
theorem builds_importDirective :
    Builds [] importDirective (optionParts Directive.interpolations) := by
  refine .before steady_importDecl fun found => ?_
  cases found with
  | none => exact .give rfl
  | some decl => exact .before (resting_addImport decl).steady fun _ => .give rfl

omit hheld in
theorem builds_some {p : Parser Directive} (hp : Builds [] p Directive.interpolations) :
    Builds [] (do return some (← p)) (optionParts Directive.interpolations) :=
  .bind hp fun directive => .give (optionParts_some _ directive)

omit hheld in
/-- A directive keeps no more of a configuration than there is in it. -/
theorem builds_configured (allowBody : Bool) (f : TraitConfig → Directive)
    (hf : ∀ config one, (f config).interpolations.count one ≤ config.interpolations.count one) :
    Builds [] (directiveConfig allowBody >>= fun config => pure (some (f config)))
      (optionParts Directive.interpolations) :=
  .bind (builds_directiveConfig allowBody) fun config => .pure fun one => by
    rw [optionParts_some]
    exact hf config one

omit hheld in
theorem builds_traitDirective (name : Token) (allowBody : Bool) :
    Builds [] (traitDirective name allowBody) (optionParts Directive.interpolations) := by
  refine .before resting_read.steady fun context => .bind (builds_directiveConfig allowBody)
    fun config => .ite (fun _ => ?_) fun _ => ?_
  · exact .before (resting_use .traits).steady fun _ => .give (optionParts_some _ _)
  · refine .before (resting_reportUnknown name).steady fun _ => ?_
    split
    · exact .drop rfl
    · exact .give (optionParts_some _ _)

omit hheld in
theorem builds_lifecycle (hook : String) : Builds [] (lifecycle hook) Directive.interpolations :=
  .before steady_paramList fun _ => .before (resting_check .leftBrace).steady fun _ =>
    .ite (fun _ => .before steady_blockText fun _ => .give rfl) fun _ => .give rfl

theorem builds_directiveNamed (name : Token) (span : Span) (position : Position)
    (allowBody : Bool) :
    Builds [] (directiveNamed held name span position allowBody)
      (optionParts Directive.interpolations) := by
  have htable (config : TraitConfig) (one : Interpolation) :
      (config.config.gather interpolations).count one ≤ config.interpolations.count one := by
    rw [TraitConfig.interpolations, List.count_append]
    exact Nat.le_add_left _ _
  unfold directiveNamed
  dsimp only
  refine .ite (fun _ => builds_some (builds_loop hheld .plain)) fun _ =>
    .ite (fun _ => builds_some (builds_loop hheld .each)) fun _ => .ite (fun _ => ?_) fun _ =>
      .ite (fun _ => builds_some (builds_conditionalWith hheld)) fun _ => .ite (fun _ => ?_)
        fun _ => ?_
  · refine .before (resting_use .controlFlow).steady fun _ => .before steady_conditionText
      fun condition => .bind (builds_controlBody hheld) fun body => .give ?_
    exact (optionParts_some _ _).trans (Directive.interpolations_whileLoop condition body)
  · refine .before (resting_report _).steady fun _ => .before (resting_check .leftBrace).steady
      fun _ => .ite (fun _ => ?_) fun _ => .give rfl
    exact .before steady_skipBalanced fun _ => .give rfl
  refine .before resting_read.steady fun context => .ite (fun _ => builds_importDirective) fun _ =>
    .ite (fun _ => builds_configured true (fun config => .state config.config) htable) fun _ =>
      .ite (fun _ => builds_configured true (fun config => .bindings config.config) htable)
        fun _ => ?_
  split
  next which _ => exact builds_configured allowBody (.setting which) fun _ _ => Nat.le_refl _
  split
  next which _ =>
    exact builds_configured allowBody (fun config => .topic which config.subject? config)
      fun _ _ => Nat.le_refl _
  exact .ite (fun _ => builds_some (builds_lifecycle name.text)) fun _ =>
    builds_traitDirective name allowBody

theorem builds_directiveWith (allowBody : Bool) :
    Builds [] (directiveWith held allowBody) (optionParts PlacedDirective.interpolations) := by
  refine .before resting_current.steady fun mark => .before steady_advance fun _ =>
    .before resting_current.steady fun name => .ite (fun _ => ?_) fun _ => ?_
  · refine .before steady_advance fun _ =>
      .bind (builds_directiveNamed hheld name _ mark.position allowBody) fun found => ?_
    cases found <;> exact .give rfl
  · exact .before (resting_unexpected _).steady fun _ => .give rfl

end

/-! ## Levels -/

theorem heldBuilds_level (levels : Nat) : HeldBuilds (level levels) := by
  induction levels with
  | zero => exact ⟨.throw, fun _ => .throw, .throw⟩
  | succ levels ih =>
      exact ⟨builds_elementWith ih, builds_directiveWith ih, builds_conditionalWith ih⟩

end Parser
end SceneLang

/-! ## Documents -/

namespace SceneLang

namespace Parser

/-! ## Directives in front of elements -/

/-- What is known of an element and of the directives in front of it. -/
def leadingParts (found : Table TraitConfig × List Directive) : List Interpolation :=
  found.1.gather TraitConfig.interpolations ++ found.2.flatMap Directive.interpolations

theorem count_addLeading_le (found : Table TraitConfig × List Directive) (directive : Directive)
    (one : Interpolation) : (leadingParts (addLeading found directive)).count one ≤
      (leadingParts found).count one + directive.interpolations.count one := by
  have htrait (name : String) (config : TraitConfig) :
      (leadingParts (found.1.insertIfNew name config, found.2)).count one ≤
        (leadingParts found).count one + config.interpolations.count one := by
    have hinsert :=
      Table.count_gather_insertIfNew TraitConfig.interpolations name config found.1 one
    simp only [leadingParts, List.count_append]
    omega
  have hother : (leadingParts (found.1, found.2 ++ [directive])).count one ≤
      (leadingParts found).count one + directive.interpolations.count one := by
    simp only [leadingParts, List.flatMap_append, List.flatMap_singleton, List.count_append]
    omega
  cases directive with
  | trait name config | generic name config => exact htrait name config
  | lifecycle | state | bindings | loop | whileLoop | conditional | imports | setting | topic =>
      exact hother

theorem count_foldl_addLeading_le (found : Table TraitConfig × List Directive)
    (leading : List Directive) (one : Interpolation) :
    (leadingParts (leading.foldl addLeading found)).count one ≤
      (leadingParts found).count one +
        (leading.flatMap Directive.interpolations).count one := by
  induction leading generalizing found with
  | nil => exact Nat.le_refl _
  | cons first rest ih =>
      have hfirst := count_addLeading_le found first one
      have hrest := ih (addLeading found first)
      rw [List.foldl_cons, List.flatMap_cons, List.count_append]
      omega

theorem count_attachLeading_le (node : Node) (leading : List Directive) (one : Interpolation) :
    (node.attachLeading leading).interpolations.count one ≤
      node.interpolations.count one + (leading.flatMap Directive.interpolations).count one := by
  have hfold := count_foldl_addLeading_le (node.traits, []) leading one
  simp only [leadingParts, List.flatMap_nil, List.count_nil, List.count_append] at hfold
  rw [attachLeading_eq, Node.count_interpolations, Node.count_interpolations node]
  dsimp only
  rw [List.flatMap_append, List.count_append]
  omega

/-! ## The top level -/

def placedParts (placed : List PlacedDirective) : List Interpolation :=
  placed.flatMap PlacedDirective.interpolations

/-- The elements that have been read, and the node that holds the directives that stand alone. -/
def topParts (found : List Node × Node) : List Interpolation :=
  nodeParts found.1 ++ found.2.interpolations

theorem builds_attachAll (node : Node) (placed : List PlacedDirective) :
    Builds (node.interpolations ++ placedParts placed) (attachAll node placed)
      Node.interpolations := by
  unfold attachAll
  induction placed generalizing node with
  | nil => exact .give (List.append_nil _).symm
  | cons first rest ih =>
      rw [placedParts, List.flatMap_cons, ← List.append_assoc, List.foldlM_cons]
      exact .bind ((builds_attach node first).ahead _) ih

section

variable {held : Held} (hheld : HeldBuilds held)
include hheld

theorem builds_leadingDirectives : Builds [] (leadingDirectives held) placedParts := by
  have hturn (placed : List PlacedDirective) : Builds (placedParts placed)
      (leadingTurn held placed) (turnParts placedParts placedParts) := by
    refine .before (resting_check .at).steady fun _ => .ite (fun _ => ?_) fun _ => .give rfl
    refine .read (hheld.directive true) fun found => .before steady_skipLayout fun _ =>
      .pure fun one => ?_
    rw [turnParts, placedParts, placedParts, List.flatMap_append]
    exact Nat.le_of_eq (List.perm_append_comm.count_eq one)
  have hloop : Builds (placedParts []) (iterate [] (leadingTurn held)) placedParts :=
    .iterate hturn
  exact .bind hloop (.reverse PlacedDirective.interpolations)

theorem builds_topTurn (found : List Node × Node) :
    Builds (topParts found) (topTurn held found) (turnParts topParts topParts) := by
  obtain ⟨roots, loose⟩ := found
  refine .before steady_skipLayout fun _ => .read (builds_leadingDirectives hheld) fun leading =>
    .before resting_currentKind.steady fun kind => ?_
  have hattach : Builds (topParts (roots, loose) ++ placedParts leading)
      (attachAll loose leading) fun loose => topParts (roots, loose) := by
    rw [topParts, List.append_assoc]
    exact (builds_attachAll loose leading).behind _
  split
  · exact .bind hattach fun _ => .give rfl
  · refine .read hheld.element fun node => .pure fun one => ?_
    have hnode := count_attachLeading_le node (leading.map (·.directive)) one
    have hleading : (leading.map (·.directive)).flatMap Directive.interpolations =
        placedParts leading := List.flatMap_map ..
    rw [hleading] at hnode
    rw [turnParts, topParts, topParts]
    simp only [nodeParts, List.flatMap_cons, List.count_append]
    omega
  · exact .bind hattach fun _ => .before steady_strayToken fun _ => .give rfl

theorem builds_topLevel {loose : Node} (hloose : loose.interpolations = []) :
    Builds [] (topLevel held loose) topParts := by
  have hloop : Builds (topParts ([], loose)) (topLevel held loose) topParts :=
    .iterate (builds_topTurn hheld)
  rwa [topParts, hloose] at hloop

end

/-! ## Whole texts -/

theorem builds_document : Builds [] document Node.interpolations := by
  refine .before resting_startPosition.steady fun start => .before resting_get.steady fun _ =>
    .bind (builds_topLevel (heldBuilds_level _) (Node.interpolations_fragment default)) ?_
  rintro ⟨roots, loose⟩
  dsimp only
  split
  next => exact builds_close loose start
  next last rest =>
    split
    next root _ hroots _ =>
      refine .pure fun one => ?_
      rw [hroots, topParts, nodeParts, List.flatMap_singleton, List.count_append]
      exact Nat.le_add_right _ _
    next =>
      refine .pure fun one => ?_
      have hreverse := count_flatMap_reverse Node.interpolations (last :: rest) one
      rw [Node.count_interpolations, topParts, List.count_append, Node.count_interpolations loose]
      dsimp only
      rw [hreverse, nodeParts]
      omega

end Parser

namespace Document

/-- The texts of a table are numbered from nought on without gaps.  Each interpolation of a tree,
wherever in it there are values, has its text in the table under its identifier, and no identifier
is there twice. -/
theorem parse_interpolations (options : ParseOptions) (source : List Char) :
    (∃ n, (Document.parse options source).expressions.keys.Perm
        ((List.range n).map interpolationName)) ∧
      (∀ one ∈ (Document.parse options source).root.interpolations,
        (Document.parse options source).expressions.find? one.id = some one.expression) ∧
      ((Document.parse options source).root.interpolations.map Interpolation.id).Nodup := by
  obtain ⟨root, state, hrun, -, hparse⟩ := exists_run options source
  have hended := Parser.ended_withEnd source (tokenize source)
  have hempty : Parser.Tracked ([] ++ [])
      (.start options (Parser.withEnd source (tokenize source))) :=
    ⟨.refl [], .nil, List.forall_mem_nil _⟩
  have htracked : Parser.Tracked ([] ++ root.interpolations) state :=
    (Parser.builds_document.makes hempty ⟨source, options⟩ _
      ⟨hended, Nat.le_refl _, rfl, Nat.zero_le _⟩ .refl root state hrun).2.2
  rw [hparse]
  exact ⟨⟨state.expressions.length, htracked.counted⟩, htracked.found, htracked.nodup⟩

-- A value that another one takes the place of, and a condition, are in the table only.
example :
    let document := Document.parse .default
      "a \x7b b: $\x7bv\x7d b: $\x7bw\x7d @if $\x7bx\x7d \x7b c: $\x7by\x7d \x7d \x7d".toList
    document.expressions.keys = ["expr_0", "expr_1", "expr_2", "expr_3"] ∧
      document.root.interpolations = [⟨"expr_1", "w"⟩, ⟨"expr_3", "y"⟩] := by
  decide +kernel

end Document

end SceneLang
