import SceneLang.Proofs.Parser.Documents
import SceneLang.Proofs.Token.Steps

/-!
# What a parse reports

A log keeps errors apart from warnings, and drops an error only when it is full.  Every parse
keeps its log in this order, so that the errors of a document tell whether it succeeded unless
there is no room for any.
-/

namespace SceneLang

/-! ## Logs -/

namespace Log

variable {limits : Limits} {log : Log}

structure Sound (limits : Limits) (log : Log) : Prop where
  limits_eq : log.limits = limits
  errors : ∀ d ∈ log.errors, d.isError = true
  warnings : ∀ d ∈ log.warnings, d.isError = false
  room : log.errors.length ≤ limits.maxErrors
  full : log.droppedErrors ≠ 0 → log.errors.length = limits.maxErrors

theorem sound_empty (limits : Limits) : Sound limits (.empty limits) where
  limits_eq := rfl
  errors := by
    intro d hmem
    cases hmem
  warnings := by
    intro d hmem
    cases hmem
  room := Nat.zero_le _
  full := by
    intro hdropped
    exact absurd rfl hdropped

theorem Sound.push (h : Sound limits log) (d : Diagnostic) : Sound limits (log.push d) := by
  have hlimits := h.limits_eq
  subst hlimits
  have hroom := h.room
  unfold Log.push
  by_cases herror : d.isError = true
  · rw [if_pos herror]
    by_cases hkept : log.errors.length < log.limits.maxErrors
    · rw [if_pos hkept]
      have hdropped : log.droppedErrors = 0 := by
        by_cases hzero : log.droppedErrors = 0
        · exact hzero
        · have hfull := h.full hzero
          omega
      refine ⟨rfl, ?_, h.warnings, ?_, fun hsome => absurd hdropped hsome⟩
      · intro other hmem
        rcases List.mem_append.mp hmem with hmem | hmem
        · exact h.errors other hmem
        · rw [List.mem_singleton.mp hmem]
          exact herror
      · rw [List.length_append]
        exact hkept
    · rw [if_neg hkept]
      exact ⟨rfl, h.errors, h.warnings, hroom, fun _ => by dsimp only; omega⟩
  · rw [if_neg herror]
    split
    · refine ⟨rfl, h.errors, ?_, hroom, h.full⟩
      intro other hmem
      rcases List.mem_append.mp hmem with hmem | hmem
      · exact h.warnings other hmem
      · rw [List.mem_singleton.mp hmem]
        exact Bool.not_eq_true _ ▸ herror
    · exact ⟨rfl, h.errors, h.warnings, hroom, h.full⟩

/-- A log is without errors if none was reported, or if it has no room for them. -/
theorem Sound.errors_eq_nil (h : Sound limits log) :
    log.errors = [] ↔ limits.maxErrors = 0 ∨ log.hasErrors = false := by
  have hroom := h.room
  have hhas : log.hasErrors = false ↔ log.errors.length = 0 ∧ log.droppedErrors = 0 := by
    rw [Log.hasErrors, Log.errorCount, decide_eq_false_iff_not]
    omega
  rw [hhas, ← List.length_eq_zero_iff]
  constructor
  · intro hnone
    by_cases hdropped : log.droppedErrors = 0
    · exact .inr ⟨hnone, hdropped⟩
    · have hfull := h.full hdropped
      exact .inl (by omega)
  · intro hnone
    omega

end Log

/-! ## Documents -/

namespace Parser

variable {limits : Limits} {state next : State}

theorem Step.log_sound (h : Step state next) (hsound : state.log.Sound limits) :
    next.log.Sound limits := by
  cases h with
  | advance =>
      have hlog : state.advance.log = state.log := by
        unfold State.advance
        split
        · rfl
        · split <;> rfl
      rwa [hlog]
  | report d => exact hsound.push d
  | valueFailed | use | enter | leave | interpolation | imports => exact hsound

theorem Reaches.log_sound (h : Reaches state next) (hsound : state.log.Sound limits) :
    next.log.Sound limits :=
  h.invariant (fun _ _ hstep hlog => hstep.log_sound hlog) hsound

end Parser

namespace Document

variable (options : ParseOptions) (source : List Char)

/-- A document is made of the tree and of the state that the parse of its text comes to. -/
theorem exists_run : ∃ root state,
    Parser.run options source (tokenize source) = .ok (root, state) ∧
      Parser.Keeps (.start options (Parser.withEnd source (tokenize source))) state ∧
        Document.parse options source = ofState root state := by
  have hended := Parser.ended_withEnd source (tokenize source)
  have hdocument : Parser.Returns Parser.document ⟨source, options⟩
      (.start options (Parser.withEnd source (tokenize source))) fun _ next =>
        Parser.Keeps (.start options (Parser.withEnd source (tokenize source))) next ∧
          next.token.kind = .eof :=
    Parser.returns_document hended (Nat.zero_le _)
  obtain ⟨root, state, hrun, hkeeps, -⟩ := hdocument
  have hrun : Parser.run options source (tokenize source) = .ok (root, state) := hrun
  refine ⟨root, state, hrun, hkeeps, ?_⟩
  rw [Document.parse, ofTokens, hrun]

theorem exists_log_sound : ∃ root state,
    Document.parse options source = ofState root state ∧ state.log.Sound options.limits := by
  obtain ⟨root, state, -, hkeeps, hparse⟩ := exists_run options source
  exact ⟨root, state, hparse, hkeeps.reaches.log_sound (Log.sound_empty _)⟩

theorem errors_eq_nil : (Document.parse options source).errors = [] ↔
    options.limits.maxErrors = 0 ∨ (Document.parse options source).success = true := by
  obtain ⟨root, state, hdocument, hsound⟩ := exists_log_sound options source
  rw [hdocument, ofState, hsound.errors_eq_nil, Bool.not_eq_true']

/-- Among the diagnostics of a document the errors are its errors. -/
theorem any_isError : (Document.parse options source).diagnostics.any Diagnostic.isError =
    !(Document.parse options source).errors.isEmpty := by
  obtain ⟨root, state, hdocument, hsound⟩ := exists_log_sound options source
  rw [hdocument, ofState, diagnostics, List.any_append]
  have hwarnings : state.log.warnings.any Diagnostic.isError = false := by
    rw [List.any_eq_false]
    intro d hmem
    rw [hsound.warnings d hmem]
    exact Bool.false_ne_true
  rw [hwarnings, Bool.or_false]
  cases herrors : state.log.errors with
  | nil => rfl
  | cons d rest =>
      have hfirst : d.isError = true := hsound.errors d (herrors ▸ List.mem_cons_self)
      rw [List.any_cons, hfirst]
      rfl

theorem any_isError_eq_false :
    (Document.parse options source).diagnostics.any Diagnostic.isError = false ↔
      options.limits.maxErrors = 0 ∨ (Document.parse options source).success = true := by
  rw [any_isError, Bool.not_eq_false', List.isEmpty_iff, errors_eq_nil]

end Document

end SceneLang

namespace SceneLang

/-! ## Blank texts

A text whose tokens are layout up to its end has an empty tree.  The tree still has a place,
which is that of the first token, be it the one at the end.
-/

/-! ## The end of a text -/

namespace Scanner

theorem ended_tokens (s : Scanner) : Parser.Ended s.tokens := by
  obtain ⟨tokens, last, token, _, hfinish, htokens⟩ := s.exists_emits_finish
  rw [htokens, Parser.Ended, List.getLast?_concat, Option.map_some, kind_of_finish hfinish]

end Scanner

theorem ended_tokenize (text : List Char) : Parser.Ended (tokenize text) :=
  (Scanner.ofText text).ended_tokens

namespace Parser

theorem withEnd_tokenize (source : List Char) :
    withEnd source (tokenize source) = tokenize source :=
  if_pos (ended_tokenize source)

/-! ## Layout -/

variable {context : Context} {state : State} {layout rest : List Token} {last : Token}

/-- Outside braces layout is skipped token by token. -/
theorem returns_skipLayout_of_layout {post : Unit → State → Prop} (hended : Ended state.ahead)
    (hahead : state.ahead = layout ++ last :: rest) (hdepth : state.braceDepth = 0)
    (hlayout : ∀ token ∈ layout, token.kind.isLayout = true) (hlast : last.kind.isLayout = false)
    (hpost : post () { state with ahead := last :: rest }) :
    Returns skipLayout context state post := by
  induction layout generalizing state with
  | nil =>
      have hvisible : state.visibleFrom 0 = last :: rest := by
        rw [State.visibleFrom, hahead]
        exact visible_cons hlast
      have hstate : { state with ahead := last :: rest } = state := by
        rw [← show state.ahead = last :: rest from hahead]
      rw [hstate] at hpost
      rw [skipLayout, skipUntil, returns_iterate, skipTurn, returns_bind, returns_bind,
        returns_currentKind hended, State.token_of_visible hvisible, hlast, returns_pure]
      exact returns_pure.mpr hpost
  | cons first layout ih =>
      have hfirst := hlayout first List.mem_cons_self
      have hvisible : state.visibleFrom 0 = first :: (layout ++ last :: rest) := by
        rw [State.visibleFrom, hahead, hdepth]
        exact visible_zero _
      have heof : first.kind ≠ .eof := by
        intro hkind
        rw [hkind] at hfirst
        contradiction
      have hopening : Delimiter.ofOpening? first.kind = none := by
        cases hkind : first.kind <;> rw [hkind] at hfirst <;> first | rfl | contradiction
      have hbraces : depthAfter state.braceDepth first.kind = state.braceDepth := by
        cases hkind : first.kind <;> rw [hkind] at hfirst <;> first | rfl | contradiction
      have hadvance : state.advance = { state with ahead := layout ++ last :: rest } := by
        rw [State.advance_of_visible hvisible heof, hbraces, hfirst]
        rfl
      have htoken := State.token_of_visible hvisible
      have hnext : Ended (layout ++ last :: rest) := by
        rw [hahead] at hended
        exact (ended_append (List.append_ne_nil_of_right_ne_nil _ (List.cons_ne_nil _ _))).mp
          (show Ended ([first] ++ (layout ++ last :: rest)) from hended)
      rw [skipLayout, skipUntil, returns_iterate, skipTurn, returns_bind, returns_bind,
        returns_currentKind hended, htoken, hfirst, returns_pure]
      rw [Bool.not_true, if_neg Bool.false_ne_true, returns_bind, skipBalanced, returns_bind,
        returns_currentKind hended, htoken, hopening]
      dsimp only
      rw [returns_bind, returns_advance hended, returns_pure, returns_pure, hadvance]
      constructor
      · rw [hahead]
        exact Nat.lt_succ_self _
      · have hrest := fun token hmem => hlayout token (List.mem_cons_of_mem _ hmem)
        have hskip : Returns skipLayout context { state with ahead := layout ++ last :: rest }
            post :=
          ih hnext rfl hdepth hrest hpost
        exact hskip

/-! ## Blank texts -/

theorem returns_topTurn_of_layout {held : Held} {roots : List Node} {loose : Node}
    {post : ForInStep (List Node × Node) → State → Prop} (hended : Ended state.ahead)
    (hahead : state.ahead = layout ++ last :: rest) (hdepth : state.braceDepth = 0)
    (hlayout : ∀ token ∈ layout, token.kind.isLayout = true) (hlast : last.kind = .eof)
    (hpost : post (.done (roots, loose)) { state with ahead := last :: rest }) :
    Returns (topTurn held (roots, loose)) context state post := by
  have hnext : Ended (last :: rest) := by
    rw [hahead] at hended
    exact (ended_append (List.cons_ne_nil _ _)).mp hended
  have hvisible : { state with ahead := last :: rest }.visibleFrom 0 = last :: rest :=
    visible_cons (by rw [hlast]; rfl)
  have htoken := State.token_of_visible hvisible
  rw [topTurn, returns_bind]
  apply returns_skipLayout_of_layout hended hahead hdepth hlayout (by rw [hlast]; rfl)
  rw [returns_bind, leadingDirectives, returns_bind, returns_iterate, leadingTurn, returns_bind,
    returns_check hnext, htoken, hlast, if_neg (by decide), returns_pure]
  dsimp only
  rw [returns_pure, returns_bind, returns_currentKind hnext, htoken, hlast]
  dsimp only
  rw [returns_bind, attachAll, List.reverse_nil, List.foldlM_nil, returns_pure, returns_pure]
  exact hpost

theorem returns_document_of_layout {post : Node → State → Prop} (hended : Ended state.ahead)
    (hahead : state.ahead = layout ++ last :: rest) (hdepth : state.braceDepth = 0)
    (hprevious : state.previous = none)
    (hlayout : ∀ token ∈ layout, token.kind.isLayout = true) (hlast : last.kind = .eof)
    (hpost : post (.fragment [] ⟨state.token.position, max .start state.token.position⟩)
      { state with ahead := last :: rest }) :
    Returns document context state post := by
  rw [document, returns_bind, startPosition, returns_bind, returns_current hended, returns_pure,
    returns_bind, returns_get, returns_bind, topLevel, returns_iterate]
  apply returns_topTurn_of_layout hended hahead hdepth hlayout hlast
  dsimp only
  rw [close, returns_bind, locationFrom, returns_bind, endPosition, returns_bind, returns_get,
    hprevious]
  rw [hprevious] at hpost
  dsimp only
  rw [returns_pure, returns_pure, returns_pure]
  exact hpost

end Parser

/-- The tree of a blank text is empty, and is where the first token is. -/
theorem Document.root_of_layout (options : ParseOptions) {source : List Char} {first : Token}
    {others : List Token} (htokens : tokenize source = first :: others)
    (hlayout : ∀ token ∈ (tokenize source).takeWhile (·.kind ≠ .eof),
      token.kind.isLayout = true) :
    (Document.parse options source).root =
      .fragment [] ⟨first.position, max .start first.position⟩ := by
  have hended := ended_tokenize source
  have hsplit := List.takeWhile_append_dropWhile (p := (·.kind ≠ .eof)) (l := tokenize source)
  have hstops := List.head?_dropWhile_not (fun token : Token => decide (token.kind ≠ .eof))
    (tokenize source)
  cases hdrop : (tokenize source).dropWhile (·.kind ≠ .eof) with
  | nil =>
      rw [hdrop, List.append_nil] at hsplit
      rw [Parser.Ended, Option.map_eq_some_iff] at hended
      obtain ⟨last, hlast, hkind⟩ := hended
      have hmem : last ∈ (tokenize source).takeWhile (·.kind ≠ .eof) := by
        rw [hsplit]
        exact List.mem_of_getLast? hlast
      have hlayout' := hlayout last hmem
      rw [hkind] at hlayout'
      contradiction
  | cons last rest =>
      rw [hdrop] at hsplit hstops
      have hlast : last.kind = .eof := by
        simpa using hstops
      let start := Parser.State.start options (tokenize source)
      have hvisible : start.visibleFrom 0 = first :: others := by
        rw [← htokens]
        exact Parser.visible_zero _
      have htoken := Parser.State.token_of_visible hvisible
      have hroot : Parser.Returns Parser.document ⟨source, options⟩ start fun root _ =>
          root = .fragment [] ⟨first.position, max .start first.position⟩ := by
        apply Parser.returns_document_of_layout hended hsplit.symm rfl rfl hlayout hlast
        rw [htoken]
      obtain ⟨root, state, hrun, hroot⟩ := hroot
      have hrun : Parser.run options source (tokenize source) = .ok (root, state) := by
        rw [Parser.run, Parser.withEnd_tokenize]
        exact hrun
      rw [Document.parse, ofTokens, hrun]
      exact hroot

end SceneLang
