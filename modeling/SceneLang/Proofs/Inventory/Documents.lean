import SceneLang.Proofs.Inventory.Machines
import SceneLang.Proofs.Parser.Traits

/-!
# The constructs of documents

A directive accounts for its configuration or for the nodes in its body.  At the end of a text
everything in the tree is accounted for: the features of a document are those of its tree at least,
and a tree without errors has none of the defects.
-/

namespace SceneLang

namespace Parser

variable {options : ParseOptions}

/-- The inventory of a list of nodes. -/
def nodeConstructs (nodes : List Node) : List Construct :=
  nodes.flatMap Node.constructs

section

variable {held : Held} (hheld : HeldAccounts options held)
include hheld

/-! ## Control flow -/

theorem accounts_controlItem (nodes : List Node) :
    Accounts options (nodeConstructs nodes) (controlItem held nodes) nodeConstructs := by
  have hitem : Accounts options ((Node.fragment [] default).draft (NodeKind.constructs none))
      (bodyItem held (.fragment [] default)) (Node.draft (NodeKind.constructs none)) :=
    accounts_bodyItem hheld (.fragment [] default)
  rw [Node.draft_fragment] at hitem
  apply Accounts.before resting_startPosition.steady
  intro start
  apply Accounts.read hitem
  intro item
  dsimp only
  split
  next child hchildren _ =>
    have hchild : child.constructs ⊆ item.holdings :=
      Node.constructs_subset_holdings (hchildren ▸ List.mem_singleton_self child)
    apply Accounts.pure
    intro construct hmem
    have hone := @hchild construct
    simp only [nodeConstructs, List.flatMap_cons, Node.draft, List.mem_append] at hmem ⊢
    grind
  next =>
    apply Accounts.ite
    · exact fun _ => .bind ((accounts_close_draft item start).behind _) fun node =>
        .pure (flatMap_cons_subset Node.constructs node nodes)
    · exact fun _ => .pure (List.subset_append_left _ _)

theorem accounts_controlBody : Accounts options [] (controlBody held) nodeConstructs := by
  have hloop : Accounts options (nodeConstructs []) (braced [] (controlItem held)) nodeConstructs :=
    .braced (accounts_controlItem hheld)
  exact hloop.bind (.reverse Node.constructs)

theorem accounts_loop (form : LoopForm) :
    Accounts options [] (loop held form) Directive.attached := by
  have hrest (item : String) : Accounts options [.controlFlow] (do
      let iterable ← conditionText
      return Directive.loop form item iterable (← controlBody held)) Directive.attached := by
    apply Accounts.before steady_conditionText
    intro iterable
    apply Accounts.read (accounts_controlBody hheld)
    exact fun body => .give (Directive.constructs_loop form item iterable)
  apply Accounts.bind (accounts_use .controlFlow rfl rfl)
  intro _
  apply Accounts.before steady_loopVariable
  intro item
  apply Accounts.before resting_current.steady
  intro token
  exact .ite (fun _ => .before steady_advance fun _ => hrest item) fun _ =>
    .before (resting_unexpected _).steady fun _ => hrest item

theorem accounts_elseBranch (start : Position) :
    Accounts options [] (elseBranch held start) nodeConstructs := by
  have hclose (holder : Node) : Accounts options (holder.draft (NodeKind.constructs none))
      (do return [← close holder start]) nodeConstructs :=
    .bind (accounts_close_draft holder start) fun node =>
      .give (List.flatMap_singleton Node.constructs node)
  apply Accounts.before resting_current.steady
  intro token
  apply Accounts.before (resting_peek 1).steady
  intro next
  apply Accounts.ite
  · intro _
    have hholder : Accounts options ((Node.fragment [] default).draft (NodeKind.constructs none))
        (attachDirective held true (.fragment [] default))
        (Node.draft (NodeKind.constructs none)) :=
      accounts_attachDirective hheld true (.fragment [] default)
    rw [Node.draft_fragment] at hholder
    exact hholder.bind hclose
  intro _
  apply Accounts.ite
  · intro _
    apply Accounts.before steady_advance
    intro _
    apply hheld.conditional.bind
    intro directive
    apply (hclose _).of_subset
    exact draft_subset (Node.kind_attach _ directive) (Node.holdings_attach _ directive)
  · exact fun _ => accounts_controlBody hheld

theorem accounts_conditionalWith :
    Accounts options [] (conditionalWith held) Directive.attached := by
  apply Accounts.bind (accounts_use .controlFlow rfl rfl)
  intro _
  apply Accounts.before steady_conditionText
  intro condition
  apply Accounts.read (accounts_controlBody hheld)
  intro body
  apply Accounts.before resting_elseAhead.steady
  intro _
  apply Accounts.ite
  · intro _
    apply Accounts.before steady_skipNewlines
    intro _
    apply Accounts.before resting_startPosition.steady
    intro start
    apply Accounts.before steady_advance
    intro _
    apply Accounts.before steady_advance
    intro _
    apply Accounts.read (accounts_elseBranch hheld start)
    exact fun elseBody => .give (Directive.constructs_conditional condition (some elseBody))
  · intro _
    apply Accounts.give
    exact (Directive.constructs_conditional condition none).trans
      (congrArg (Construct.controlFlow :: ·) (List.append_nil _))

/-! ## Directives -/

omit hheld in
/-- Each import that comes to a declaration has been noted. -/
theorem accounts_importDirective :
    Accounts options [] importDirective (optionConstructs Directive.attached) := by
  have hdecl : Accounts options [] importDecl fun _ => [.imports] := by
    apply Accounts.bind (accounts_use .imports rfl rfl)
    intro _
    apply Accounts.before resting_current.steady
    intro token
    split
    · exact .before steady_advance fun _ => .before steady_importAlias fun _ => .give rfl
    · exact .before (Steady.braced steady_importName) fun _ =>
        .before steady_importSource fun _ => .give rfl
    · exact .before steady_advance fun _ => .before steady_importSource fun _ => .give rfl
    · exact .before (resting_unexpected _).steady fun _ => .give rfl
  apply hdecl.bind
  intro found
  cases found with
  | none => exact .drop rfl
  | some decl => exact .before (resting_addImport decl).steady fun _ => .give rfl

omit hheld in
theorem accounts_some {p : Parser Directive} (hp : Accounts options [] p Directive.attached) :
    Accounts options [] (do return some (← p)) (optionConstructs Directive.attached) :=
  .bind hp fun directive => .give (optionConstructs_some _ directive)

omit hheld in
/-- A directive keeps no more of a configuration than there is in it. -/
theorem accounts_configured (allowBody : Bool) (f : TraitConfig → Directive)
    (hf : ∀ config, (f config).attached ⊆ config.constructs) :
    Accounts options [] (directiveConfig allowBody >>= fun config => pure (some (f config)))
      (optionConstructs Directive.attached) :=
  .bind (accounts_directiveConfig allowBody) fun config => .pure <| by
    rw [optionConstructs_some]
    exact hf config

omit hheld in
/-- A known trait is noted, and an unknown one is kept by a lenient parse only. -/
theorem accounts_traitDirective (name : Token) (allowBody : Bool) :
    Accounts options [] (traitDirective name allowBody) (optionConstructs Directive.attached) := by
  have hconfig (config : TraitConfig) :
      traitConstructs (name.text, config) ⊆ config.constructs ++ [.trait name.text] := by
    simp [traitConstructs]
  apply Accounts.context
  intro source
  apply (accounts_directiveConfig allowBody).bind
  intro config
  dsimp only
  apply Accounts.ite
  · intro hknown
    have hallowed : (Construct.trait name.text).allowed options = true := by
      rw [Construct.allowed, hknown, Bool.or_true]
    apply Accounts.read (accounts_use (.trait name.text) (if_pos hknown) hallowed)
    intro _
    apply Accounts.pure
    rw [optionConstructs_some]
    exact hconfig config
  · intro hunknown
    apply Accounts.before (resting_reportUnknown name).steady
    intro _
    split
    next => exact .drop rfl
    next hlenient =>
      rw [Bool.not_eq_true] at hlenient
      have hallowed : (Construct.trait name.text).allowed options = true := by
        rw [Construct.allowed, hlenient, Bool.not_false, Bool.true_or]
      apply Accounts.of_noted (.trait name.text)
      · exact fun _ => noted_of_feature?_eq_none (if_neg hunknown) (by simp [Construct.faults])
          hallowed
      · apply Accounts.pure
        rw [optionConstructs_some]
        exact hconfig config

omit hheld in
theorem accounts_lifecycle (hook : String) :
    Accounts options [] (lifecycle hook) Directive.attached := by
  apply Accounts.before steady_paramList
  intro params
  apply Accounts.before (resting_check .leftBrace).steady
  exact fun _ => .ite (fun _ => .before steady_blockText fun _ => .give rfl) fun _ => .give rfl

theorem accounts_directiveNamed (name : Token) (span : Span) (position : Position)
    (allowBody : Bool) :
    Accounts options [] (directiveNamed held name span position allowBody)
      (optionConstructs Directive.attached) := by
  unfold directiveNamed
  dsimp only
  apply Accounts.ite
  · exact fun _ => accounts_some (accounts_loop hheld .plain)
  intro _
  apply Accounts.ite
  · exact fun _ => accounts_some (accounts_loop hheld .each)
  intro _
  apply Accounts.ite
  · intro _
    apply Accounts.bind (accounts_use .controlFlow rfl rfl)
    intro _
    apply Accounts.before steady_conditionText
    intro condition
    apply Accounts.read (accounts_controlBody hheld)
    intro body
    apply Accounts.give
    rw [optionConstructs_some]
    exact Directive.constructs_whileLoop condition
  intro _
  apply Accounts.ite
  · exact fun _ => accounts_some (accounts_conditionalWith hheld)
  intro _
  apply Accounts.ite
  · intro _
    apply Accounts.before (resting_report _).steady
    intro _
    apply Accounts.before (resting_check .leftBrace).steady
    exact fun _ => .ite (fun _ => .before steady_skipBalanced fun _ => .give rfl) fun _ => .give rfl
  intro _
  apply Accounts.before resting_read.steady
  intro context
  apply Accounts.ite
  · exact fun _ => accounts_importDirective
  intro _
  apply Accounts.ite
  · exact fun _ => accounts_configured true (fun config => .state config.config) fun _ =>
      List.subset_append_right _ _
  intro _
  apply Accounts.ite
  · exact fun _ => accounts_configured true (fun config => .bindings config.config) fun _ =>
      List.subset_append_right _ _
  intro _
  split
  next which _ => exact accounts_configured allowBody (.setting which) fun _ => List.Subset.refl _
  split
  next which _ =>
    exact accounts_configured allowBody (fun config => .topic which config.subject? config)
      fun _ => List.Subset.refl _
  exact .ite (fun _ => accounts_some (accounts_lifecycle name.text)) fun _ =>
    accounts_traitDirective name allowBody

theorem accounts_directiveWith (allowBody : Bool) :
    Accounts options [] (directiveWith held allowBody)
      (optionConstructs PlacedDirective.attached) := by
  apply Accounts.before resting_current.steady
  intro mark
  apply Accounts.before steady_advance
  intro _
  apply Accounts.before resting_current.steady
  intro name
  apply Accounts.ite
  · intro _
    apply Accounts.before steady_advance
    intro _
    apply (accounts_directiveNamed hheld name _ mark.position allowBody).bind
    intro found
    cases found with
    | none => exact .give rfl
    | some directive => exact .give rfl
  · exact fun _ => .before (resting_unexpected _).steady fun _ => .give rfl

end

/-! ## Levels -/

theorem heldAccounts_level (levels : Nat) : HeldAccounts options (level levels) := by
  induction levels with
  | zero => exact ⟨.throw, fun _ => .throw, .throw⟩
  | succ levels ih =>
      exact ⟨accounts_elementWith ih, accounts_directiveWith ih, accounts_conditionalWith ih⟩

/-! ## Directives in front of elements -/

/-- What is known of an element and of the directives in front of it. -/
def leadingConstructs (found : Table TraitConfig × List Directive) : List Construct :=
  found.1.flatMap traitConstructs ++ found.2.flatMap Directive.constructs

theorem constructs_addLeading (found : Table TraitConfig × List Directive)
    (directive : Directive) : leadingConstructs (addLeading found directive) ⊆
      leadingConstructs found ++ directive.attached := by
  intro construct hmem
  cases directive with
  | trait name config | generic name config =>
      have hone := @Table.flatMap_insertIfNew_subset _ _ traitConstructs name config found.1 construct
      simp only [addLeading, leadingConstructs, Directive.attached, List.mem_append] at hmem hone ⊢
      grind
  | lifecycle | state | bindings | loop | whileLoop | conditional | imports | setting | topic =>
      simp only [addLeading, leadingConstructs, Directive.attached, List.flatMap_append,
        List.flatMap_singleton, List.mem_append] at hmem ⊢
      grind

theorem constructs_foldl_addLeading (found : Table TraitConfig × List Directive)
    (leading : List Directive) : leadingConstructs (leading.foldl addLeading found) ⊆
      leadingConstructs found ++ leading.flatMap Directive.attached := by
  induction leading generalizing found with
  | nil => exact List.subset_append_left _ _
  | cons first rest ih =>
      intro construct hmem
      have hfirst := @constructs_addLeading found first construct
      have hrest := ih (addLeading found first) hmem
      simp only [List.flatMap_cons, List.mem_append] at hfirst hrest ⊢
      grind

theorem constructs_attachLeading (node : Node) (leading : List Directive) :
    (node.attachLeading leading).constructs ⊆
      node.constructs ++ leading.flatMap Directive.attached := by
  intro construct hmem
  have hone := @constructs_foldl_addLeading (node.traits, []) leading construct
  rw [attachLeading_eq, Node.constructs_eq] at hmem
  rw [Node.constructs_eq]
  simp only [leadingConstructs, Node.holdings, List.flatMap_nil, List.flatMap_append,
    List.append_nil, List.mem_append] at hmem hone ⊢
  grind

/-! ## The top level -/

def placedConstructs (placed : List PlacedDirective) : List Construct :=
  placed.flatMap PlacedDirective.attached

/-- The elements that have been read, and the node that holds the directives that stand alone. -/
def topConstructs (found : List Node × Node) : List Construct :=
  nodeConstructs found.1 ++ found.2.draft (NodeKind.constructs none)

theorem accounts_attachAll (node : Node) (placed : List PlacedDirective) :
    Accounts options (node.draft (NodeKind.constructs none) ++ placedConstructs placed)
      (attachAll node placed) (Node.draft (NodeKind.constructs none)) := by
  unfold attachAll
  induction placed generalizing node with
  | nil => exact .give (List.append_nil _).symm
  | cons first rest ih =>
      rw [placedConstructs, List.flatMap_cons, ← List.append_assoc, List.foldlM_cons]
      exact .bind ((accounts_attach node first).ahead _) ih

section

variable {held : Held} (hheld : HeldAccounts options held)
include hheld

theorem accounts_leadingDirectives :
    Accounts options [] (leadingDirectives held) placedConstructs := by
  have hturn (placed : List PlacedDirective) : Accounts options (placedConstructs placed)
      (leadingTurn held placed) (turnConstructs placedConstructs placedConstructs) := by
    apply Accounts.before (resting_check .at).steady
    intro _
    apply Accounts.ite
    · intro _
      apply Accounts.read (hheld.directive true)
      intro found
      apply Accounts.before steady_skipLayout
      intro _
      apply Accounts.pure
      rw [turnConstructs, placedConstructs, List.flatMap_append]
      exact List.perm_append_comm.subset
    · exact fun _ => .give rfl
  have hloop : Accounts options (placedConstructs []) (iterate [] (leadingTurn held))
      placedConstructs := .iterate hturn
  exact hloop.bind (.reverse PlacedDirective.attached)

theorem accounts_topTurn (found : List Node × Node) :
    Accounts options (topConstructs found) (topTurn held found)
      (turnConstructs topConstructs topConstructs) := by
  obtain ⟨roots, loose⟩ := found
  apply Accounts.before steady_skipLayout
  intro _
  apply Accounts.read (accounts_leadingDirectives hheld)
  intro leading
  apply Accounts.before resting_currentKind.steady
  intro kind
  have hattach : Accounts options (topConstructs (roots, loose) ++ placedConstructs leading)
      (attachAll loose leading) fun loose => topConstructs (roots, loose) := by
    rw [topConstructs, List.append_assoc]
    exact (accounts_attachAll loose leading).behind _
  split
  · exact .bind hattach fun _ => .give rfl
  · apply Accounts.read hheld.element
    intro node
    apply Accounts.pure
    intro construct hmem
    have hone := @constructs_attachLeading node (leading.map (·.directive)) construct
    have hleading : (leading.map (·.directive)).flatMap Directive.attached =
        placedConstructs leading := List.flatMap_map ..
    simp only [hleading, turnConstructs, topConstructs, nodeConstructs, List.flatMap_cons,
      List.mem_append] at hmem hone ⊢
    grind
  · exact .bind hattach fun _ => .before steady_strayToken fun _ => .give rfl

theorem accounts_topLevel : Accounts options [] (topLevel held (.fragment [] default))
    topConstructs := by
  have hloop : Accounts options (topConstructs ([], .fragment [] default))
      (topLevel held (.fragment [] default)) topConstructs := .iterate (accounts_topTurn hheld)
  exact hloop

end

/-! ## Whole texts -/

theorem accounts_document : Accounts options [] document Node.constructs := by
  apply Accounts.before resting_startPosition.steady
  intro start
  apply Accounts.before resting_get.steady
  intro _
  apply (accounts_topLevel (heldAccounts_level _)).bind
  rintro ⟨roots, loose⟩
  dsimp only
  split
  next => exact accounts_close_draft loose start
  next last rest =>
    split
    next root _ hroots _ =>
      apply Accounts.pure
      rw [hroots, topConstructs, nodeConstructs, List.flatMap_singleton]
      exact List.subset_append_left _ _
    next =>
      apply Accounts.pure
      intro construct hmem
      have hroots := @flatMap_reverse_subset _ Node.constructs (last :: rest) construct
      have hkind := @NodeKind.constructs_subset loose.name loose.kind construct
      rw [Node.constructs_eq] at hmem
      simp only [topConstructs, nodeConstructs, Node.draft, Node.holdings, List.mem_append]
        at hmem hroots hkind ⊢
      grind

end Parser

/-! ## What the inventory of a node tells -/

namespace Node

variable {node : Node}

theorem strayTrait_mem_constructs {directive : Directive} {entry : String × TraitConfig}
    (hmem : directive ∈ node.directives) (htrait : directive.trait? = some entry) :
    Construct.strayTrait entry.1 ∈ node.constructs := by
  have hstray : Construct.strayTrait entry.1 ∈ directive.constructs := by
    cases directive with
    | trait name config | generic name config =>
        cases htrait
        exact List.mem_cons_self
    | lifecycle | state | bindings | loop | whileLoop | conditional | imports | setting | topic =>
        cases htrait
  have hsome : ∃ directive ∈ node.directives, Construct.strayTrait entry.1 ∈ directive.constructs :=
    ⟨directive, hmem, hstray⟩
  rw [constructs_eq]
  simp [holdings, hsome]

theorem trait_mem_constructs {entry : String × TraitConfig} (hmem : entry ∈ node.traits) :
    Construct.trait entry.1 ∈ node.constructs := by
  have hsome : ∃ name config, (name, config) ∈ node.traits ∧
      Construct.trait entry.1 ∈ traitConstructs (name, config) :=
    ⟨entry.1, entry.2, hmem, List.mem_cons_self⟩
  rw [constructs_eq]
  simp [holdings, hsome]

theorem unstarted_mem_constructs {machine : StateMachine} (hkind : node.kind = .stateMachine machine)
    (hinitial : machine.initial = none) : Construct.unstarted ∈ node.constructs := by
  rw [constructs_eq, hkind]
  simp [NodeKind.constructs, hinitial]

theorem unnamed_mem_constructs {params : List String} {body : String}
    (hkind : node.kind = .function params body) (hname : node.name = none) :
    Construct.unnamed ∈ node.constructs := by
  rw [constructs_eq, hkind]
  simp [NodeKind.constructs, hname]

/-- A state machine with an initial state, a function with a name, and, under strict options, none
but known traits, and those only if traits are enabled. -/
structure Complete (options : ParseOptions) (node : Node) : Prop where
  started : ∀ machine, node.kind = .stateMachine machine → machine.initial.isSome = true
  named : ∀ params body, node.kind = .function params body → node.name.isSome = true
  known : options.strict = true → ∀ name ∈ node.traits.keys, Vocabulary.isTrait name = true
  disabled : options.strict = true → options.traits = false → node.traits = []

end Node

namespace Document

variable (options : ParseOptions) (source : List Char)

/-- The whole tree of a text is accounted for at its end. -/
theorem exists_noted : ∃ root state, Document.parse options source = ofState root state ∧
    ∀ construct ∈ root.constructs, Parser.Noted options construct state := by
  obtain ⟨root, state, hrun, -, hparse⟩ := exists_run options source
  have hended := Parser.ended_withEnd source (tokenize source)
  have hstart : Parser.Answers options []
      (.start options (Parser.withEnd source (tokenize source))) :=
    ⟨hended, Nat.zero_le _, List.forall_mem_nil _⟩
  have hanswers := (Parser.accounts_document source _ hstart root state hrun).1
  exact ⟨root, state, hparse, hanswers.noted⟩

/-- Whatever construct is in the tree of a text, at any depth, the feature that it belongs to is
among the features of the document. -/
theorem parse_features_cover : ∀ construct ∈ (Document.parse options source).root.constructs,
    ∀ feature ∈ construct.feature? options.traits,
      feature ∈ (Document.parse options source).features := by
  obtain ⟨root, state, hparse, hnoted⟩ := exists_noted options source
  rw [hparse]
  intro construct hmem feature hfeature
  exact Feature.mem_inOrder.mpr ((hnoted construct hmem).feature feature hfeature)

/-- An element of each kind that has a feature, and in a template, in a branch behind another one, a
list of a function with a rest parameter and an interpolation. -/
def allConstructs : List Char :=
  ("@import \"a\"\nenvironment \x7b\x7d\nlogic \x7b\x7d\nfunction b() \x7b\x7d\n" ++
    "state_machine c \x7binitial: d\x7d\ntemplate e \x7borb f @grabbable \x7b@if g \x7b\x7d " ++
    "@else if h \x7bi: [(j, ...k) => $\x7bl\x7d]\x7d\x7d\x7d\n").toList

/-- What the text above is made with. -/
def constructsMet : List Construct :=
  [.environment, .imports, .logic, .function, .stateMachine, .template, .controlFlow, .controlFlow,
    .arrow, .spread, .interpolation, .trait "grabbable"]

theorem parse_features_cover_allConstructs :
    (Document.parse .default allConstructs).root.constructs = constructsMet ∧
      ∀ construct ∈ constructsMet, ∀ feature ∈ construct.feature? true,
        feature ∈ (Document.parse .default allConstructs).features := by
  have hroot : (Document.parse .default allConstructs).root.constructs = constructsMet := by
    decide +kernel
  have hcover := parse_features_cover .default allConstructs
  rw [hroot] at hcover
  exact ⟨hroot, hcover⟩

/-- Traits are kept in the table of traits only, and a tree that is read without an error is
complete: an element that is left out, cut off or skipped over is put in with an error. -/
theorem parse_complete :
    (∀ node ∈ (Document.parse options source).root.walk, ∀ directive ∈ node.directives,
      directive.trait? = none) ∧
    ((Document.parse options source).success = true →
      ∀ node ∈ (Document.parse options source).root.walk, node.Complete options) := by
  obtain ⟨root, state, hparse, hnoted⟩ := exists_noted options source
  rw [hparse]
  have hnode {node : Node} (hwalk : node ∈ root.walk) {construct : Construct}
      (hmem : construct ∈ node.constructs) : Parser.Noted options construct state :=
    hnoted construct (Node.constructs_subset_of_mem_walk root hwalk hmem)
  constructor
  · intro node hwalk directive hdirective
    by_contra htrait
    obtain ⟨entry, hentry⟩ := Option.ne_none_iff_exists'.mp htrait
    have hstray := hnode hwalk (Node.strayTrait_mem_constructs hdirective hentry)
    exact Bool.false_ne_true hstray.allowed
  intro hsuccess node hwalk
  have hclean : state.log.hasErrors = false := by simpa [ofState] using hsuccess
  have hfault {construct : Construct} (hmem : construct ∈ node.constructs) :
      construct ∉ Construct.faults := by
    intro hfaults
    have herrors := (hnode hwalk hmem).fault hfaults
    rw [hclean] at herrors
    exact Bool.false_ne_true herrors
  constructor
  case started =>
    intro machine hkind
    rw [← Option.ne_none_iff_isSome]
    intro hinitial
    exact hfault (Node.unstarted_mem_constructs hkind hinitial) (by decide)
  case named =>
    intro params body hkind
    rw [← Option.ne_none_iff_isSome]
    intro hname
    exact hfault (Node.unnamed_mem_constructs hkind hname) (by decide)
  case known =>
    intro hstrict name hname
    obtain ⟨entry, hentry, rfl⟩ := List.mem_map.mp hname
    have hallowed := (hnode hwalk (Node.trait_mem_constructs hentry)).allowed
    simp [Construct.allowed, hstrict] at hallowed
    exact hallowed.2
  case disabled =>
    intro hstrict htraits
    rw [List.eq_nil_iff_forall_not_mem]
    intro entry hentry
    have hallowed := (hnode hwalk (Node.trait_mem_constructs hentry)).allowed
    simp [Construct.allowed, hstrict, htraits] at hallowed

theorem parse_complete_strict :
    let document := Document.parse ⟨true, true, true, .default⟩
      "state_machine a \x7binitial: b\x7d\nfunction c() \x7b\x7d\norb d @grabbable \x7b\x7d\n".toList
    document.success = true ∧ document.root.walk.length = 4 ∧
      ∀ node ∈ document.root.walk, node.Complete ⟨true, true, true, .default⟩ := by
  intro document
  have hsuccess : document.success = true ∧ document.root.walk.length = 4 := by decide +kernel
  exact ⟨hsuccess.1, hsuccess.2, (parse_complete _ _).2 hsuccess.1⟩

end Document

end SceneLang
