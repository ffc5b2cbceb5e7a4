import SceneLang.Proofs.Parser.Directives

/-!
# Every parse comes to its end

Whatever the tokens are, a parse of them runs into no fault: it looks at no token outside the
list, lowers no count below zero, and goes round no loop without reading.  The cursor only
moves forward, and where the parse returns it stands on the first token that marks the end.
-/

namespace SceneLang
namespace Parser

variable {bound depth : Nat} {context : Context} {state : State}

/-! ## The top level -/

theorem steady_skipLayout : Steady bound depth skipLayout := by
  apply steady_skipUntil
  intro context state hwithin
  rw [returns_bind, returns_currentKind hwithin.ended, returns_pure]
  exact ⟨rfl, fun heof => by simp [heof, TokenKind.isLayout]⟩

theorem resting_attachAll (node : Node) (placed : List PlacedDirective) :
    Resting bound depth (attachAll node placed) := by
  unfold attachAll
  induction placed generalizing node with
  | nil => exact .pure node
  | cons first rest ih =>
      rw [List.foldlM_cons]
      exact (resting_attach node first).bind ih

theorem steady_strayToken : Steady bound depth strayToken := by
  apply (resting_unexpected _).steady.bind
  intro _
  apply (resting_check .rightBrace).steady.bind
  intro _
  exact .ite steady_advance steady_synchronize

theorem reading_strayToken : Reading (· ≠ .eof) bound depth strayToken := by
  have hskip : Reading (· ≠ .eof) bound depth (do
      if ← check .rightBrace then advance else synchronize) := by
    intro context state hwithin heof
    rw [returns_bind, returns_check hwithin.ended, returns_ite]
    constructor
    · intro _
      exact reading_advance context state hwithin heof
    intro hbrace
    rw [decide_eq_true_eq] at hbrace
    exact reading_synchronize context state hwithin (endsBlock_eq_false hbrace heof)
  exact (resting_unexpected _).reading fun _ => hskip

section

variable {held : Held} (hheld : Forward bound held)
include hheld

theorem turning_leadingTurn (placed : List PlacedDirective) :
    Turning bound depth (leadingTurn held placed) := by
  intro context state hwithin
  rw [leadingTurn, returns_bind, returns_check hwithin.ended, returns_ite]
  constructor
  · intro hat
    exact ((hheld.directive depth true).bind fun _ => steady_skipLayout.bind fun _ =>
      .pure _).turn hwithin (of_decide_eq_true hat)
  · intro _
    exact returns_pure.mpr (Keeps.refl state)

theorem steady_leadingDirectives : Steady bound depth (leadingDirectives held) :=
  Steady.bind (.iterate (turning_leadingTurn hheld)) fun _ => .pure _

theorem returns_topTurn (found : List Node × Node) (hwithin : Within bound depth state) :
    Returns (topTurn held found) context state fun result next =>
      match result with
      | .done _ => Keeps state next ∧ next.token.kind = .eof
      | .yield _ => Reads state next := by
  obtain ⟨roots, loose⟩ := found
  have hfront : Steady bound depth (do
      skipLayout
      leadingDirectives held) :=
    steady_skipLayout.bind fun _ => steady_leadingDirectives hheld
  have hsplit := hfront context state hwithin
  rw [topTurn, returns_bind]
  rw [returns_bind] at hsplit
  apply hsplit.mono
  intro _ first hfirst
  rw [returns_bind]
  apply hfirst.mono
  intro leading next hkeeps
  have hnext := hwithin.keeps hkeeps
  rw [returns_bind, returns_currentKind hnext.ended]
  split
  next heof =>
    rw [returns_bind]
    apply (resting_attachAll loose leading context next hnext).mono
    intro _ last hlast
    rw [returns_pure]
    exact ⟨hkeeps.trans hlast.keeps, by rw [hlast.token]; exact heof⟩
  next hword =>
    rw [returns_bind]
    apply (hheld.element depth context next hnext hword).mono
    intro node last hlast
    exact returns_pure.mpr (hkeeps.reads hlast)
  next heof _ =>
    rw [returns_bind]
    apply (resting_attachAll loose leading context next hnext).mono
    intro loose last hlast
    have hlast' := hnext.keeps hlast.keeps
    rw [returns_bind]
    refine (reading_strayToken context last hlast' ?_).mono fun _ final hfinal => ?_
    · rw [hlast.token]
      exact heof
    · exact returns_pure.mpr ((hkeeps.trans hlast.keeps).reads hfinal)

theorem turning_topTurn (found : List Node × Node) :
    Turning bound depth (topTurn held found) := by
  intro context state hwithin
  apply (returns_topTurn hheld found hwithin).mono
  intro result next hnext
  cases result with
  | done found => exact hnext.1
  | yield found => exact hnext

theorem returns_topLevel (loose : Node) (hwithin : Within bound depth state) :
    Returns (topLevel held loose) context state fun _ next =>
      Keeps state next ∧ next.token.kind = .eof := by
  apply Returns.iterate (fun _ next => Keeps state next) (.refl state)
  intro found next hkeeps
  apply (returns_topTurn hheld found (hwithin.keeps hkeeps)).mono
  intro result last hlast
  cases result with
  | done found => exact ⟨hkeeps.trans hlast.1, hlast.2⟩
  | yield found => exact ⟨(hkeeps.reads hlast).toKeeps, hlast.shorter⟩

end

/-! ## Whole texts -/

theorem returns_document (hended : Ended state.ahead) (hnesting : state.nesting ≤ maxNesting) :
    Returns document context state fun _ next =>
      Keeps state next ∧ next.token.kind = .eof := by
  have hwithin : Within (state.ahead.length + 1) state.nesting state :=
    ⟨hended, Nat.le_succ _, rfl, hnesting⟩
  rw [document, returns_bind, startPosition, returns_bind, returns_current hended, returns_pure,
    returns_bind, returns_get, returns_bind]
  apply (returns_topLevel (forward_level _) _ hwithin).mono
  rintro ⟨roots, loose⟩ next ⟨hkeeps, heof⟩
  have hnext := hwithin.keeps hkeeps
  dsimp only
  split
  next =>
    apply (resting_close loose _ context next hnext).mono
    intro _ last hlast
    exact ⟨hkeeps.trans hlast.keeps, by rw [hlast.token]; exact heof⟩
  next =>
    split
    next => exact returns_pure.mpr ⟨hkeeps, heof⟩
    next => exact returns_pure.mpr ⟨hkeeps, heof⟩

/-- A cursor that has moved onto a token that marks the end sees the first one of them. -/
theorem Moved.visibleFrom_of_eof {state next : State} (h : Moved state next)
    (hended : Ended state.ahead) (heof : next.token.kind = .eof) :
    next.visibleFrom 0 = state.ahead.dropWhile (·.kind ≠ .eof) := by
  obtain ⟨rest, hvisible⟩ := exists_visibleFrom (h.ended hended) 0
  obtain ⟨front, hsplit, hfree, -⟩ := h
  obtain ⟨hidden, hbehind, hlayout⟩ := visible_append next.braceDepth next.ahead
  have hvisible : visible next.braceDepth next.ahead = next.token :: rest := hvisible
  have hfront : ∀ token ∈ front ++ hidden, decide (token.kind ≠ .eof) = true := by
    intro token hmem
    rcases List.mem_append.mp hmem with hmem | hmem
    · exact decide_eq_true (hfree token hmem)
    · apply decide_eq_true
      intro hkind
      have hlayout' := hlayout token hmem
      rw [hkind] at hlayout'
      contradiction
  calc
    next.visibleFrom 0 = next.token :: rest := hvisible
    _ = (next.token :: rest).dropWhile (·.kind ≠ .eof) :=
      (List.dropWhile_cons_of_neg (by simp [heof])).symm
    _ = (front ++ hidden ++ next.token :: rest).dropWhile (·.kind ≠ .eof) :=
      (List.dropWhile_append_of_pos hfront).symm
    _ = state.ahead.dropWhile (·.kind ≠ .eof) := by
      rw [List.append_assoc, ← hvisible, ← hbehind, ← hsplit]

/-- What goes forward with at most `bound` tokens ahead: values and elements, and each turn of
each loop, which reads a token unless it is the last one. -/
structure Progress (bound depth : Nat) : Prop where
  value : Steady bound depth value
  object : Steady bound depth object
  held : Forward bound (level bound)
  -- Loops over the elements of a text and over what an element holds.
  topLevel : ∀ found, Turning bound depth (topTurn (level bound) found)
  leading : ∀ placed, Turning bound depth (leadingTurn (level bound) placed)
  head : ∀ headLine node, Turning bound depth (headTurn (level bound) headLine node)
  indented : ∀ found, Turning bound depth (indentedTurn (level bound) found)
  body : ∀ opening node, Turning bound depth (bracedTurn opening (bodyItem (level bound)) node)
  control : ∀ opening nodes,
    Turning bound depth (bracedTurn opening (controlItem (level bound)) nodes)
  logic : ∀ opening found, Turning bound depth (bracedTurn opening (logicTurn (level bound)) found)
  machine : ∀ opening found,
    Turning bound depth (bracedTurn opening (machineItem (level bound)) found)
  machineState : ∀ opening found, Turning bound depth (bracedTurn opening stateItem found)
  transitions : ∀ opening found, Turning bound depth (bracedTurn opening transitionItem found)
  imports : ∀ opening names, Turning bound depth (bracedTurn opening importName names)
  -- Loops over arguments and parameters.
  arguments : ∀ config, Turning bound depth (argumentTurn config)
  texts : ∀ line config, Turning bound depth (textTurn line config)
  paramList : ∀ params, Turning bound depth (paramListTurn params)
  arrowParams : ∀ params context state, Within bound depth state →
    opensArrow state.ahead = true → Returns (paramTurn params) context state (Turn state)
  -- Loops within a value, with enough levels left for the values inside it.
  sequence : ∀ levels delimiter items, maxNesting < levels + depth →
    Turning bound depth (sequenceTurn (nested levels) delimiter items)
  objectEntries : ∀ levels opening entries, maxNesting < levels + depth →
    Turning bound depth (objectTurn (nested levels) opening entries)
  postfixes : ∀ levels value, maxNesting < levels + depth →
    Turning bound depth (postfixTurn (nested levels) value)
  prefixes : ∀ ops, Turning bound depth (prefixTurn ops)
  chain : ∀ operator? operand left, operator? .eof = none → Steady bound depth operand →
    Turning bound depth (chainTurn operator? operand left)
  -- Loops that skip.
  synchronize : Turning bound depth (skipTurn atSafePlace)
  recoverInList : Turning bound depth (skipTurn atListEnd)
  skip : ∀ test, Stops bound depth test → Turning bound depth (skipTurn test)
  closing : ∀ delimiter groups context state, 0 < groups → Within bound depth state →
    Returns (closingTurn delimiter groups) context state (Turn state)

theorem progress (bound depth : Nat) : Progress bound depth := by
  have hheld := forward_level bound
  have hinner {levels : Nat} (hlevels : maxNesting < levels + depth) (strength : Strength) :
      Steady bound depth (nested levels strength) := steady_nested hlevels strength
  exact {
    value := steady_value
    object := steady_object
    held := hheld
    topLevel := turning_topTurn hheld
    leading := turning_leadingTurn hheld
    head := turning_headTurn hheld
    indented := turning_indentedTurn hheld
    body := fun _ => turning_bracedTurn (steady_bodyItem hheld)
    control := fun _ => turning_bracedTurn (steady_controlItem hheld)
    logic := fun _ => turning_bracedTurn (steady_logicTurn hheld)
    machine := fun _ => turning_bracedTurn (steady_machineItem hheld)
    machineState := fun _ => turning_bracedTurn steady_stateItem
    transitions := fun _ => turning_bracedTurn steady_transitionItem
    imports := fun _ => turning_bracedTurn steady_importName
    arguments := turning_argumentTurn
    texts := turning_textTurn
    paramList := turning_paramListTurn
    arrowParams := fun _ _ _ hwithin harrow =>
      (returns_paramTurn hwithin.ended harrow).mono fun result _ hnext => by
        cases result with
        | done params => exact hnext
        | yield params => exact hnext.1
    sequence := fun _ delimiter items hlevels =>
      turning_sequenceTurn (hinner hlevels) delimiter items
    objectEntries := fun _ opening entries hlevels =>
      turning_objectTurn (hinner hlevels) opening entries
    postfixes := fun _ value hlevels => turning_postfixTurn (hinner hlevels) value
    prefixes := turning_prefixTurn
    chain := fun _ _ left hoperator hoperand => turning_chainTurn hoperator hoperand left
    synchronize := turning_skipTurn stops_atSafePlace
    recoverInList := turning_skipTurn stops_atListEnd
    skip := fun _ htest => turning_skipTurn htest
    closing := fun _ _ _ _ hpos hwithin =>
      (returns_closingTurn hpos hwithin).mono fun result _ hnext => by
        cases result with
        | done groups => exact hnext
        | yield groups => exact hnext.2 }

/-- A parse of any tokens runs into no fault.  On its way the cursor has moved forward over
tokens none of which marks the end, and it stands on the first one that does; each part of the
parse, and each turn of its loops, makes progress. -/
theorem run_reaches_end (options : ParseOptions) (source : List Char) (tokens : List Token) :
    (∃ root state, run options source tokens = .ok (root, state) ∧
      Document.ofTokens options source tokens = Document.ofState root state ∧
      (∃ front, withEnd source tokens = front ++ state.ahead ∧
        ∀ token ∈ front, token.kind ≠ .eof) ∧
      state.visibleFrom 0 = (withEnd source tokens).dropWhile (·.kind ≠ .eof) ∧
      state.token.kind = .eof ∧ state.nesting = 0) ∧
    ∀ bound depth, Progress bound depth := by
  refine ⟨?_, progress⟩
  have hended := ended_withEnd source tokens
  have hdocument : Returns document ⟨source, options⟩ (.start options (withEnd source tokens))
      fun _ next => Keeps (.start options (withEnd source tokens)) next ∧ next.token.kind = .eof :=
    returns_document hended (Nat.zero_le _)
  obtain ⟨root, state, hrun, hkeeps, heof⟩ := hdocument
  have hrun : run options source tokens = .ok (root, state) := hrun
  obtain ⟨front, hsplit, hfree, -⟩ := hkeeps.moved
  refine ⟨root, state, hrun, ?_, ⟨front, hsplit, hfree⟩, ?_, heof, hkeeps.nesting⟩
  · rw [Document.ofTokens, hrun]
  · exact hkeeps.moved.visibleFrom_of_eof hended heof

end Parser
end SceneLang
