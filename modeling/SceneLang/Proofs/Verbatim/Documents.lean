import SceneLang.Proofs.Verbatim.Elements

/-!
# The bodies of documents

A directive holds the bodies of its configuration or of the nodes in its body, and a hook has one of
its own.  At the end of a text each body in the tree is what is written in a block of the text,
trimmed, and what is written there has not been read in any other way.
-/

namespace SceneLang
namespace Parser

variable {source : List Char}

/-- The bodies of a list of nodes. -/
def nodeBodies (nodes : List Node) : List RawBody :=
  nodes.flatMap Node.rawBodies

section

variable {held : Held} (hheld : HeldQuotes source held)
include hheld

/-! ## Control flow -/

theorem quotes_controlItem (nodes : List Node) :
    Quotes source (nodeBodies nodes) (controlItem held nodes) nodeBodies := by
  have hitem : Quotes source [] (bodyItem held (.fragment [] default)) Node.rawBodies :=
    quotes_bodyItem hheld (.fragment [] default)
  apply Quotes.before resting_startPosition.steady
  intro start
  apply Quotes.read hitem
  intro item
  dsimp only
  split
  next child hchildren _ =>
    have hchild : child.rawBodies ⊆ item.rawBodies :=
      Node.rawBodies_subset_of_child (hchildren ▸ List.mem_singleton_self child)
    apply Quotes.pure
    intro body hmem
    have hone := @hchild body
    simp only [nodeBodies, List.flatMap_cons, List.mem_append] at hmem ⊢
    grind
  next =>
    apply Quotes.ite
    · exact fun _ => .bind ((quotes_close item start).behind _) fun node =>
        .pure (flatMap_bodies_cons Node.rawBodies node nodes)
    · exact fun _ => .pure (List.subset_append_left _ _)

theorem quotes_controlBody : Quotes source [] (controlBody held) nodeBodies := by
  have hloop : Quotes source (nodeBodies []) (braced [] (controlItem held)) nodeBodies :=
    .braced (quotes_controlItem hheld)
  exact hloop.bind (.reverse Node.rawBodies)

theorem quotes_loop (form : LoopForm) :
    Quotes source [] (loop held form) Directive.rawBodies := by
  have hrest (item : String) : Quotes source [] (do
      let iterable ← conditionText
      return Directive.loop form item iterable (← controlBody held)) Directive.rawBodies := by
    apply Quotes.before steady_conditionText
    intro iterable
    apply (quotes_controlBody hheld).bind
    exact fun body => .give (Node.rawBodiesOfAll_eq body)
  apply Quotes.before (resting_use .controlFlow).steady
  intro _
  apply Quotes.before steady_loopVariable
  intro item
  apply Quotes.before resting_current.steady
  intro token
  exact .ite (fun _ => .before steady_advance fun _ => hrest item) fun _ =>
    .before (resting_unexpected _).steady fun _ => hrest item

theorem quotes_elseBranch (start : Position) :
    Quotes source [] (elseBranch held start) nodeBodies := by
  have hclose (holder : Node) : Quotes source holder.rawBodies
      (do return [← close holder start]) nodeBodies :=
    .bind (quotes_close holder start) fun node =>
      .give (List.flatMap_singleton Node.rawBodies node)
  apply Quotes.before resting_current.steady
  intro token
  apply Quotes.before (resting_peek 1).steady
  intro next
  apply Quotes.ite
  · intro _
    have hholder : Quotes source [] (attachDirective held true (.fragment [] default))
        Node.rawBodies := quotes_attachDirective hheld true (.fragment [] default)
    exact hholder.bind hclose
  intro _
  apply Quotes.ite
  · intro _
    apply Quotes.before steady_advance
    intro _
    apply hheld.conditional.bind
    intro directive
    exact (hclose _).of_subset (Node.rawBodies_attach (.fragment [] default) directive)
  · exact fun _ => quotes_controlBody hheld

theorem quotes_conditionalWith :
    Quotes source [] (conditionalWith held) Directive.rawBodies := by
  apply Quotes.before (resting_use .controlFlow).steady
  intro _
  apply Quotes.before steady_conditionText
  intro condition
  apply (quotes_controlBody hheld).bind
  intro body
  apply Quotes.before resting_elseAhead.steady
  intro _
  apply Quotes.ite
  · intro _
    apply Quotes.before steady_skipNewlines
    intro _
    apply Quotes.before resting_startPosition.steady
    intro start
    apply Quotes.before steady_advance
    intro _
    apply Quotes.before steady_advance
    intro _
    apply Quotes.read (quotes_elseBranch hheld start)
    exact fun elseBody => .give (Directive.rawBodies_conditional condition body (some elseBody))
  · exact fun _ => .give ((Directive.rawBodies_conditional condition body none).trans
      (List.append_nil _))

/-! ## Directives -/

omit hheld in
theorem quotes_some {p : Parser Directive} (hp : Quotes source [] p Directive.rawBodies) :
    Quotes source [] (do return some (← p)) (optionBodies Directive.rawBodies) :=
  .bind hp fun directive => .give (optionBodies_some _ directive)

omit hheld in
/-- A directive holds no more bodies than its configuration. -/
theorem quotes_configured (allowBody : Bool) (f : TraitConfig → Directive)
    (hf : ∀ config, (f config).rawBodies ⊆ config.rawBodies) :
    Quotes source [] (directiveConfig allowBody >>= fun config => pure (some (f config)))
      (optionBodies Directive.rawBodies) :=
  .bind (quotes_directiveConfig allowBody) fun config => .pure <| by
    rw [optionBodies_some]
    exact hf config

omit hheld in
theorem quotes_importDirective :
    Quotes source [] importDirective (optionBodies Directive.rawBodies) := by
  have hdecl {bound depth : Nat} : Steady bound depth importDecl := by
    apply (resting_use .imports).steady.bind
    intro _
    apply resting_current.steady.bind
    intro token
    split
    · exact steady_advance.bind fun _ => steady_importAlias.bind fun _ => .pure _
    · exact (Steady.braced steady_importName).bind fun _ =>
        steady_importSource.bind fun _ => .pure _
    · exact steady_advance.bind fun _ => steady_importSource.bind fun _ => .pure _
    · exact (resting_unexpected _).steady.bind fun _ => .pure _
  apply Quotes.before hdecl
  intro found
  cases found with
  | none => exact .give rfl
  | some decl => exact .before (resting_addImport decl).steady fun _ => .give rfl

omit hheld in
theorem quotes_traitDirective (name : Token) (allowBody : Bool) :
    Quotes source [] (traitDirective name allowBody) (optionBodies Directive.rawBodies) := by
  apply Quotes.before resting_read.steady
  intro context
  apply (quotes_directiveConfig allowBody).bind
  intro config
  apply Quotes.ite
  · exact fun _ => .before (resting_use .traits).steady fun _ =>
      .give (optionBodies_some Directive.rawBodies _)
  · intro _
    apply Quotes.before (resting_reportUnknown name).steady
    intro _
    split
    next => exact .pure (List.nil_subset _)
    next => exact .give (optionBodies_some Directive.rawBodies _)

omit hheld in
/-- A hook may be written without a block. -/
theorem quotes_lifecycle (hook : String) :
    Quotes source [] (lifecycle hook) Directive.rawBodies := by
  have habsent : Quotes source [] (pure "") fun text => [⟨text, false⟩] :=
    fun past _ => (lasting_allQuoted fun text => [⟨text, false⟩]).lays
      (List.forall_mem_singleton.mpr (.absent rfl fun hneeded => nomatch hneeded))
  apply Quotes.before steady_paramList
  intro params
  apply Quotes.before (resting_check .leftBrace).steady
  exact fun _ => .ite (fun _ => .bind (quotes_blockText false) fun _ => .give rfl) fun _ =>
    habsent.bind fun _ => .give rfl

theorem quotes_directiveNamed (name : Token) (span : Span) (position : Position)
    (allowBody : Bool) :
    Quotes source [] (directiveNamed held name span position allowBody)
      (optionBodies Directive.rawBodies) := by
  unfold directiveNamed
  dsimp only
  apply Quotes.ite
  · exact fun _ => quotes_some (quotes_loop hheld .plain)
  intro _
  apply Quotes.ite
  · exact fun _ => quotes_some (quotes_loop hheld .each)
  intro _
  apply Quotes.ite
  · intro _
    apply Quotes.before (resting_use .controlFlow).steady
    intro _
    apply Quotes.before steady_conditionText
    intro condition
    apply (quotes_controlBody hheld).bind
    intro body
    apply Quotes.give
    rw [optionBodies_some]
    exact Node.rawBodiesOfAll_eq body
  intro _
  apply Quotes.ite
  · exact fun _ => quotes_some (quotes_conditionalWith hheld)
  intro _
  apply Quotes.ite
  · intro _
    apply Quotes.before (resting_report _).steady
    intro _
    apply Quotes.before (resting_check .leftBrace).steady
    exact fun _ => .ite (fun _ => .before steady_skipBalanced fun _ => .give rfl) fun _ => .give rfl
  intro _
  apply Quotes.before resting_read.steady
  intro context
  apply Quotes.ite
  · exact fun _ => quotes_importDirective
  intro _
  apply Quotes.ite
  · exact fun _ => quotes_configured true (fun config => .state config.config) fun _ =>
      List.subset_append_right _ _
  intro _
  apply Quotes.ite
  · exact fun _ => quotes_configured true (fun config => .bindings config.config) fun _ =>
      List.subset_append_right _ _
  intro _
  split
  next which _ => exact quotes_configured allowBody (.setting which) fun _ => List.Subset.refl _
  split
  next which _ =>
    exact quotes_configured allowBody (fun config => .topic which config.subject? config)
      fun _ => List.Subset.refl _
  exact .ite (fun _ => quotes_some (quotes_lifecycle name.text)) fun _ =>
    quotes_traitDirective name allowBody

theorem quotes_directiveWith (allowBody : Bool) :
    Quotes source [] (directiveWith held allowBody)
      (optionBodies PlacedDirective.rawBodies) := by
  apply Quotes.before resting_current.steady
  intro mark
  apply Quotes.before steady_advance
  intro _
  apply Quotes.before resting_current.steady
  intro name
  apply Quotes.ite
  · intro _
    apply Quotes.before steady_advance
    intro _
    apply (quotes_directiveNamed hheld name _ mark.position allowBody).bind
    intro found
    cases found with
    | none => exact .give rfl
    | some directive => exact .give rfl
  · exact fun _ => .before (resting_unexpected _).steady fun _ => .give rfl

end

/-- A hook keeps the block behind its parameters. -/
theorem lifecycle_eq {options : ParseOptions} {hook body : String} {params : List String}
    {state behind next : State} (hstands : Stands source state)
    (hparams : paramList ⟨source, options⟩ state = .ok (params, behind))
    (hbody : captureBlock ⟨source, options⟩ behind = .ok (some body, next)) :
    lifecycle hook ⟨source, options⟩ state = .ok (.lifecycle hook params body, next) := by
  have hended : Ended behind.ahead := by
    have hkeeps := steady_paramList ⟨source, options⟩ state hstands.within
    rw [returns_of_run hparams] at hkeeps
    exact hkeeps.moved.ended hstands.ended
  have hbrace : behind.token.kind = .leftBrace := by
    by_contra hother
    have habsent : Returns captureBlock ⟨source, options⟩ behind _ :=
      returns_captureBlock_absent hended hother
    rw [returns_of_run hbody] at habsent
    exact nomatch habsent.1
  have hreturns : Returns (lifecycle hook) ⟨source, options⟩ state fun directive last =>
      directive = .lifecycle hook params body ∧ last = next := by
    rw [lifecycle, returns_bind, returns_of_run hparams, returns_bind, returns_check hended, hbrace]
    refine returns_bind.mpr (returns_bind.mpr ((returns_of_run hbody).mpr ?_))
    exact returns_pure.mpr (returns_pure.mpr ⟨rfl, rfl⟩)
  obtain ⟨_, _, hrun, rfl, rfl⟩ := hreturns
  exact hrun

/-! ## Levels -/

theorem heldQuotes_level (levels : Nat) : HeldQuotes source (level levels) := by
  induction levels with
  | zero => exact ⟨.throw, fun _ => .throw, .throw⟩
  | succ levels ih =>
      exact ⟨quotes_elementWith ih, quotes_directiveWith ih, quotes_conditionalWith ih⟩

/-! ## The top level -/

def placedBodies (placed : List PlacedDirective) : List RawBody :=
  placed.flatMap PlacedDirective.rawBodies

/-- The elements that have been read, and the node that holds the directives that stand alone. -/
def topBodies (found : List Node × Node) : List RawBody :=
  nodeBodies found.1 ++ found.2.rawBodies

theorem quotes_attachAll (node : Node) (placed : List PlacedDirective) :
    Quotes source (node.rawBodies ++ placedBodies placed) (attachAll node placed)
      Node.rawBodies := by
  unfold attachAll
  induction placed generalizing node with
  | nil => exact .give (List.append_nil _).symm
  | cons first rest ih =>
      rw [placedBodies, List.flatMap_cons, ← List.append_assoc, List.foldlM_cons]
      exact .bind ((quotes_attach node first).ahead _) ih

section

variable {held : Held} (hheld : HeldQuotes source held)
include hheld

theorem quotes_leadingDirectives :
    Quotes source [] (leadingDirectives held) placedBodies := by
  have hturn (placed : List PlacedDirective) : Quotes source (placedBodies placed)
      (leadingTurn held placed) (turnBodies placedBodies placedBodies) := by
    apply Quotes.before (resting_check .at).steady
    intro _
    apply Quotes.ite
    · intro _
      apply Quotes.read (hheld.directive true)
      intro found
      apply Quotes.before steady_skipLayout
      intro _
      apply Quotes.pure
      rw [turnBodies, placedBodies, List.flatMap_append]
      exact List.perm_append_comm.subset
    · exact fun _ => .give rfl
  have hloop : Quotes source (placedBodies []) (iterate [] (leadingTurn held)) placedBodies :=
    .iterate hturn
  exact hloop.bind (.reverse PlacedDirective.rawBodies)

theorem quotes_topTurn (found : List Node × Node) :
    Quotes source (topBodies found) (topTurn held found) (turnBodies topBodies topBodies) := by
  obtain ⟨roots, loose⟩ := found
  apply Quotes.before steady_skipLayout
  intro _
  apply Quotes.read (quotes_leadingDirectives hheld)
  intro leading
  apply Quotes.before resting_currentKind.steady
  intro kind
  have hattach : Quotes source (topBodies (roots, loose) ++ placedBodies leading)
      (attachAll loose leading) fun loose => topBodies (roots, loose) := by
    rw [topBodies, List.append_assoc]
    exact (quotes_attachAll loose leading).behind _
  split
  · exact .bind hattach fun _ => .give rfl
  · apply Quotes.read hheld.element
    intro node
    apply Quotes.pure
    intro body hmem
    have hone := @rawBodies_attachLeading node (leading.map (·.directive)) body
    have hleading : (leading.map (·.directive)).flatMap Directive.rawBodies =
        placedBodies leading := List.flatMap_map ..
    simp only [hleading, turnBodies, topBodies, nodeBodies, List.flatMap_cons, List.mem_append]
      at hmem hone ⊢
    grind
  · exact .bind hattach fun _ => .before steady_strayToken fun _ => .give rfl

theorem quotes_topLevel : Quotes source [] (topLevel held (.fragment [] default)) topBodies := by
  have hloop : Quotes source (topBodies ([], .fragment [] default))
      (topLevel held (.fragment [] default)) topBodies := .iterate (quotes_topTurn hheld)
  exact hloop

end

/-! ## Whole texts -/

theorem quotes_document : Quotes source [] document Node.rawBodies := by
  apply Quotes.before resting_startPosition.steady
  intro start
  apply Quotes.before resting_get.steady
  intro _
  apply (quotes_topLevel (heldQuotes_level _)).bind
  rintro ⟨roots, loose⟩
  dsimp only
  split
  next => exact quotes_close loose start
  next last rest =>
    split
    next root _ hroots _ =>
      apply Quotes.pure
      rw [hroots, topBodies, nodeBodies, List.flatMap_singleton]
      exact List.subset_append_left _ _
    next =>
      apply Quotes.pure
      intro body hmem
      have hroots := ((List.reverse_perm (last :: rest)).flatMap_right Node.rawBodies).subset
        (a := body)
      rw [Node.rawBodies_eq] at hmem
      simp only [topBodies, nodeBodies, Node.rawBodies_eq loose, Node.heldBodies, List.mem_append]
        at hmem hroots ⊢
      grind

end Parser

open SceneLang.Parser (Stands captureBlock paramList lifecycle unclosedBlock)
open Token (Matches Unmatched Between Trails)

namespace Document

/-- An error of the code is among the errors, unless these are as many as may be kept. -/
def Reports (options : ParseOptions) (document : Document) (code : Code) : Prop :=
  (∃ d ∈ document.errors, d.code = code) ∨ document.errors.length = options.limits.maxErrors

theorem parse_quoted (options : ParseOptions) (source : List Char) :
    ∀ body ∈ (Document.parse options source).root.rawBodies,
      body.Quoted source ((Document.parse options source).Reports options) := by
  obtain ⟨root, state, hrun, hkeeps, hparse⟩ := exists_run options source
  have hsound : state.log.Sound options.limits :=
    hkeeps.reaches.log_sound (Log.sound_empty options.limits)
  rw [Parser.run, Parser.withEnd_tokenize] at hrun
  have hquoted : Parser.AllQuoted source root.rawBodies state :=
    (Parser.quotes_document _ .nil options _ (Parser.stands_start options source) .refl trivial
      root state hrun).made
  rw [hparse]
  refine fun body hmem => (hquoted body hmem).mono fun code hreports => ?_
  obtain hdropped | herror := hreports
  · exact .inr (hsound.full hdropped)
  · exact .inl herror

/-- A block that is kept as text is cut out of the source as it is written there.  Where a brace
matches the opening one, the parse goes on behind it with nothing but the cursor moved; otherwise
the block goes on to the end, and nothing but the error that says so is noted.  A hook keeps the block
behind its parameters.  Each body in a tree is the text of such a block, or empty where none is
written, and it is an error to write none but for a hook. -/
theorem parse_verbatim (options : ParseOptions) (source : List Char) :
    (∀ state opening tokens, Stands source state → state.visibleFrom 0 = opening :: tokens →
      opening.kind = .leftBrace →
      (∀ inside closing back, Matches tokens inside closing back →
        ∃ text, Between source opening closing text ∧
          captureBlock ⟨source, options⟩ state = .ok (some (String.ofList (Text.trim text)),
            { state with ahead := back, previous := some closing })) ∧
      (Unmatched tokens → ∃ text next, Trails source opening text ∧
        captureBlock ⟨source, options⟩ state =
          .ok (some (String.ofList (Text.trim text)), next) ∧
        next.token.kind = .eof ∧
        next = { state.withCursor next with
          log := state.log.push (unclosedBlock source opening next.previous) })) ∧
    (∀ hook state params behind body next, Stands source state →
      paramList ⟨source, options⟩ state = .ok (params, behind) →
      captureBlock ⟨source, options⟩ behind = .ok (some body, next) →
      lifecycle hook ⟨source, options⟩ state = .ok (.lifecycle hook params body, next)) ∧
    ∀ body ∈ (Document.parse options source).root.rawBodies,
      body.Quoted source ((Document.parse options source).Reports options) := by
  refine ⟨fun state opening tokens hstands hvisible hopening => ?_,
    fun hook state params behind body next hstands => Parser.lifecycle_eq hstands,
    parse_quoted options source⟩
  have hreturns : Parser.Returns captureBlock ⟨source, options⟩ state _ :=
    Parser.returns_captureBlock hstands hvisible hopening
  obtain ⟨_, next, hrun, text, rfl, hcaptured⟩ := hreturns
  constructor
  · intro inside closing back hmatches
    cases hcaptured with
    | closed hmatches' htext =>
        obtain ⟨-, rfl, rfl⟩ := hmatches.unique hmatches'
        exact ⟨text, htext, hrun⟩
    | unclosed hunmatched => exact absurd hmatches (hunmatched inside closing back)
  · intro hunmatched
    cases hcaptured with
    | closed hmatches => exact absurd hmatches (hunmatched _ _ _)
    | unclosed _ htext heof hnext => exact ⟨text, next, htext, hrun, heof, hnext⟩

/-- A block with braces in a quoted text and around a word, and an open parenthesis. -/
def closedBlock : List Char :=
  "\x7ba \"\x7d\" \x7bb\x7d ( \x7d c".toList

/-- A block that is left open behind another one. -/
def openBlock : List Char :=
  "\x7ba \x7bb\x7d (".toList

/-- A body of each kind, with braces in texts, comments and interpolations; the last one is open. -/
def allBodies : List Char :=
  ("function f() \x7b a(\"\x7d\") /* \x7d */ \x7d\n" ++
    "logic \x7b fn g() \x7b $\x7b \x7d \x7b\x7d \x7d on_h \x7b ( \x7d \x7d\n" ++
    "state_machine m \x7b initial: s " ++
    "state s \x7b on_entry \x7b i \x7d on_exit \x7b j \x7d \x7d \x7d\n" ++
    "@if k \x7b orb l \x7b @on_click() \x7b\x7d @on_hover m: () => \x7b n \x7b\x7d\no").toList

def bodiesMet : List RawBody :=
  [⟨"n \x7b\x7d\no", true⟩, ⟨"", false⟩, ⟨"", false⟩, ⟨"a(\"\x7d\") /* \x7d */", true⟩,
    ⟨"$\x7b \x7d \x7b\x7d", true⟩, ⟨"(", true⟩, ⟨"i", true⟩, ⟨"j", true⟩]

theorem parse_verbatim_allBodies :
    (∃ text closing back, captureBlock ⟨closedBlock, .default⟩
        (.start .default (tokenize closedBlock)) = .ok (some (String.ofList (Text.trim text)),
          { Parser.State.start .default (tokenize closedBlock) with
            ahead := back, previous := some closing }) ∧
      lifecycle "on_open" ⟨closedBlock, .default⟩ (.start .default (tokenize closedBlock)) =
        .ok (.lifecycle "on_open" [] (String.ofList (Text.trim text)),
          { Parser.State.start .default (tokenize closedBlock) with
            ahead := back, previous := some closing })) ∧
    (∃ text next, captureBlock ⟨openBlock, .default⟩ (.start .default (tokenize openBlock)) =
        .ok (some (String.ofList (Text.trim text)), next) ∧ next.token.kind = .eof) ∧
    (Document.parse .default allBodies).root.rawBodies = bodiesMet ∧
    ∀ body ∈ bodiesMet, body.Quoted allBodies
      ((Document.parse .default allBodies).Reports .default) := by
  have hbodies : (Document.parse .default allBodies).root.rawBodies = bodiesMet := by decide +kernel
  refine ⟨?_, ?_, hbodies, hbodies ▸ (parse_verbatim .default allBodies).2.2⟩
  · have hstands := Parser.stands_start .default closedBlock
    have hvisible : (Parser.State.start .default (tokenize closedBlock)).visibleFrom 0 =
        ⟨.leftBrace, "\x7b", ⟨0, 1⟩, ⟨1, 1⟩⟩ :: (tokenize closedBlock).tail := by
      decide +kernel
    have hmatches : Matches (tokenize closedBlock).tail ((tokenize closedBlock).tail.take 6)
        ⟨.rightBrace, "\x7d", ⟨13, 14⟩, ⟨1, 14⟩⟩ ((tokenize closedBlock).drop 8) := by
      decide +kernel
    have hverbatim := parse_verbatim .default closedBlock
    obtain ⟨text, -, hrun⟩ := (hverbatim.1 _ _ _ hstands hvisible rfl).1 _ _ _ hmatches
    have hparams : Parser.Returns paramList ⟨closedBlock, .default⟩
        (.start .default (tokenize closedBlock)) fun params behind =>
          params = [] ∧ behind = .start .default (tokenize closedBlock) := by
      rw [paramList, Parser.returns_bind, Parser.returns_eat hstands.ended]
      refine ⟨fun hkind => ?_, fun _ => Parser.returns_pure.mpr ⟨rfl, rfl⟩⟩
      rw [Parser.State.token_of_visible hvisible] at hkind
      cases hkind
    obtain ⟨_, _, hparams, rfl, rfl⟩ := hparams
    exact ⟨text, _, _, hrun, hverbatim.2.1 _ _ _ _ _ _ hstands hparams hrun⟩
  · have hvisible : (Parser.State.start .default (tokenize openBlock)).visibleFrom 0 =
        ⟨.leftBrace, "\x7b", ⟨0, 1⟩, ⟨1, 1⟩⟩ :: (tokenize openBlock).tail := by
      decide +kernel
    have hopen : Token.KeepsOpen (tokenize openBlock).tail := by decide +kernel
    obtain ⟨text, next, -, hrun, heof, -⟩ := ((parse_verbatim .default openBlock).1 _ _ _
      (Parser.stands_start _ _) hvisible rfl).2 hopen.unmatched
    exact ⟨text, next, hrun, heof⟩

end Document

end SceneLang
