import SceneLang.Proofs.Shelter.Elements
import SceneLang.Proofs.Parser.Directives

/-!
# Directives stay within a block

Directives, with the conditions and bodies of those that steer control flow, close no brace that
was open before, and so does all that is held, on every level.
-/

namespace SceneLang
namespace Parser

variable {after : List Token} {context : Context} {state : State} {starts : Token → Prop}

/-! ## Control flow -/

theorem dwells_skipCondition : DwellsAt starts after skipCondition :=
  dwells_skipUntil (halts_of_kind
    (fun kind => kind = .leftBrace || kind.endsBlock || kind.isLayout) rfl)

theorem dwells_conditionText : DwellsAt starts after conditionText :=
  .rest resting_current fun _ => (dwells_valueOr dwells_skipCondition).bind fun _ =>
    .rest (resting_setValueFailed false) fun _ => .rest resting_previousSpan fun _ =>
      .rest (resting_sliceBetween _ _) fun _ => .pure _

theorem dwells_loopVariable : DwellsAt starts after loopVariable := by
  refine .current fun token _ => .ite (fun hkind => ?_) fun _ => ?_
  · exact (dwells_advance_of (by rw [hkind]; simp)).bind fun _ => .pure _
  · exact .rest (resting_unexpected _) fun _ => .pure _

/-- There are no line breaks to be seen within a block. -/
theorem returns_elseAhead_of_sheltered (h : Sheltered after state) :
    Returns elseAhead context state fun found next => next = state ∧
      (found = true → state.token.kind = .at ∧ (state.tokenAt 1).kind = .identifier) := by
  obtain ⟨opened, hopened, hinside⟩ := h.exists_inside
  obtain ⟨rest, hvisible, _, hplain⟩ := hinside.exists_visible hopened
  have hbreak : state.token.kind ≠ .newline := by
    intro hkind
    rw [hkind] at hplain
    cases hplain
  have hbehind : state.behindBreaks = state.visibleFrom 0 := by
    rw [State.behindBreaks, hvisible]
    exact List.dropWhile_cons_of_neg (by simpa using hbreak)
  obtain ⟨others, hnext⟩ := exists_visibleFrom h.state_ended 1
  rw [elseAhead, returns_bind, returns_get, hbehind]
  have hwords : visible state.braceDepth (behind (state.visibleFrom 0)) = state.tokenAt 1 :: others :=
    hnext
  rw [hvisible] at hwords ⊢
  simp only [hwords]
  rw [returns_pure]
  refine ⟨rfl, fun hfound => ?_⟩
  simp only [Bool.and_eq_true, decide_eq_true_eq, Token.isWord] at hfound
  exact ⟨hfound.1, hfound.2.1⟩

theorem returns_skipNewlines_of_sheltered (h : Sheltered after state) :
    Returns skipNewlines context state fun _ next => next = state := by
  obtain ⟨opened, hopened, hinside⟩ := h.exists_inside
  obtain ⟨_, _, _, hplain⟩ := hinside.exists_visible hopened
  have hbreak : state.token.kind ≠ .newline := by
    intro hkind
    rw [hkind] at hplain
    cases hplain
  rw [skipNewlines, skipUntil, returns_iterate, skipTurn, returns_bind, returns_bind,
    returns_check h.state_ended, returns_pure]
  simp [hbreak]

section

variable {held : Held} (hheld : held.Dwells after)
include hheld

theorem dwells_controlItem (nodes : List Node) : DwellsAt Opens after (controlItem held nodes) := by
  refine .rest resting_startPosition fun start => (dwells_bodyItem hheld _).bind fun item => ?_
  dsimp only
  split
  next => exact .pure _
  next =>
    exact .ite (fun _ => .rest (resting_close item start) fun _ => .pure _) fun _ => .pure _

theorem dwells_controlBody : DwellsAt starts after (controlBody held) :=
  (dwells_braced (dwells_controlItem hheld) _).bind fun _ => .pure _

theorem dwells_loop (form : LoopForm) : DwellsAt starts after (loop held form) := by
  have hrest (item : String) : Dwells after (do
      let iterable ← conditionText
      return Directive.loop form item iterable (← controlBody held)) :=
    dwells_conditionText.bind fun _ => (dwells_controlBody hheld).bind fun _ => .pure _
  refine .rest (resting_use _) fun _ => dwells_loopVariable.bind fun item => .current fun token _ =>
    .ite (fun hword => ?_) fun _ => ?_
  · have hopens : Opens token := by
      rw [Bool.or_eq_true] at hword
      exact hword.elim opens_of_isWord opens_of_isWord
    exact (dwells_advance_of hopens).bind fun _ => hrest item
  · exact .rest (resting_unexpected _) fun _ => (hrest item).at

theorem dwells_elseBranch (start : Position) : DwellsAt starts after (elseBranch held start) := by
  refine .current fun token _ => .rest (resting_peek 1) fun next => .ite (fun hchained => ?_)
    fun _ => .ite (fun hword => ?_) fun _ => dwells_controlBody hheld
  · simp only [Bool.and_eq_true, decide_eq_true_eq] at hchained
    exact ((dwells_attachDirective hheld true _).of_token hchained.1).bind fun holder =>
      .rest (resting_close holder start) fun _ => .pure _
  · exact (dwells_advance_of (opens_of_isWord hword)).bind fun _ => hheld.conditional.bind fun _ =>
      .rest (resting_close _ start) fun _ => .pure _

theorem dwells_conditionalWith : DwellsAt starts after (conditionalWith held) := by
  refine .rest (resting_use _) fun _ => dwells_conditionText.bind fun condition =>
    (dwells_controlBody hheld).bind fun body => ?_
  intro context state hsheltered _
  refine (returns_elseAhead_of_sheltered hsheltered).leads.bind ?_
  rintro found next ⟨hnext, hfound⟩
  subst hnext
  refine .ite (fun hbranch => ?_) fun _ => leads_pure (.refl hsheltered)
  obtain ⟨hmark, hword⟩ := hfound hbranch
  refine (returns_skipNewlines_of_sheltered hsheltered).leads.bind ?_
  rintro _ last hlast
  subst hlast
  have hplain : Plain last.token := by
    refine ⟨?_, ?_, ?_⟩ <;> simp [hmark, Delimiter.ofOpening?, Delimiter.ofClosing?]
  have hbranch : DwellsBefore last.token .identifier after (do
      let start ← startPosition
      advance
      advance
      return Directive.conditional condition body (some (← elseBranch held start))) :=
    .rest resting_startPosition fun start => .advance hplain
      ((dwells_advance fun _ hkind => by rw [hkind]; simp).bind fun _ =>
        (dwells_elseBranch hheld start).bind fun _ => .pure _)
  exact hbranch context last hsheltered rfl hword

end

/-! ## Imports -/

theorem dwells_importSource : DwellsAt starts after importSource := by
  refine .current fun token _ => .ite (fun hword => ?_) fun _ => ?_
  · refine (dwells_advance_of (opens_of_isWord hword)).bind fun _ => .current fun path _ =>
      .ite (fun hkind => ?_) fun _ => .rest (resting_unexpected _) fun _ => .pure _
    exact (dwells_advance_of (by rw [hkind]; simp)).bind fun _ => .pure _
  · exact .rest (resting_unexpected _) fun _ => .pure _

theorem dwells_importAlias : DwellsAt starts after importAlias := by
  refine .current fun token _ => .ite (fun hword => ?_) fun _ => .pure _
  exact (dwells_advance_of (opens_of_isWord hword)).bind fun _ => dwells_expectName _

theorem dwells_importName (names : List ImportName) :
    DwellsAt Opens after (importName names) := by
  refine .current fun token hopens => .ite (fun _ => ?_) fun _ => ?_
  · exact (dwells_advance_of hopens).bind fun _ => dwells_importAlias.bind fun _ => .pure _
  · exact .rest (resting_unexpected _) fun _ => (dwells_advance_of hopens).bind fun _ => .pure _

theorem dwells_importDecl : DwellsAt starts after importDecl := by
  refine .rest (resting_use _) fun _ => .current fun token _ => ?_
  split
  next hkind =>
    exact (dwells_advance_of (by rw [hkind]; simp)).bind fun _ =>
      dwells_importAlias.bind fun _ => .pure _
  next => exact (dwells_braced dwells_importName _).bind fun _ => dwells_importSource.bind fun _ => .pure _
  next hkind =>
    exact (dwells_advance_of (by rw [hkind]; simp)).bind fun _ =>
      dwells_importSource.bind fun _ => .pure _
  next => exact .rest (resting_unexpected _) fun _ => .pure _

theorem dwells_importDirective : DwellsAt starts after importDirective := by
  refine dwells_importDecl.bind fun found => ?_
  cases found with
  | none => exact .pure none
  | some decl =>
      refine .rest (.modify fun state => ?_) fun _ => .pure _
      exact ⟨rfl, rfl, rfl, .single (.imports state decl)⟩

/-! ## Directives -/

theorem dwells_traitDirective (name : Token) (allowBody : Bool) :
    DwellsAt starts after (traitDirective name allowBody) := by
  refine .rest resting_read fun _ => (dwells_directiveConfig allowBody).bind fun _ =>
    .ite (fun _ => ?_) fun _ => ?_
  · exact .rest (resting_use _) fun _ => .pure _
  · exact .rest (resting_reportUnknown name) fun _ => .pure _

theorem dwells_lifecycle (hook : String) : DwellsAt starts after (lifecycle hook) := by
  refine dwells_paramList.bind fun _ => .check fun _ _ => .ite (fun _ => ?_) fun _ => .pure _
  exact dwells_blockText.bind fun _ => .pure _

section

variable {held : Held} (hheld : held.Dwells after)
include hheld

theorem dwells_directiveNamed (name : Token) (span : Span) (position : Position)
    (allowBody : Bool) : DwellsAt starts after (directiveNamed held name span position allowBody) := by
  unfold directiveNamed
  dsimp only
  refine .ite (fun _ => ?_) fun _ => .ite (fun _ => ?_) fun _ => .ite (fun _ => ?_) fun _ =>
    .ite (fun _ => ?_) fun _ => .ite (fun _ => ?_) fun _ => .rest resting_read fun _ =>
    .ite (fun _ => dwells_importDirective) fun _ => .ite (fun _ => ?_) fun _ =>
    .ite (fun _ => ?_) fun _ => ?_
  · exact (dwells_loop hheld _).bind fun _ => .pure _
  · exact (dwells_loop hheld _).bind fun _ => .pure _
  · exact .rest (resting_use _) fun _ => dwells_conditionText.bind fun _ =>
      (dwells_controlBody hheld).bind fun _ => .pure _
  · exact (dwells_conditionalWith hheld).bind fun _ => .pure _
  · refine .rest (resting_report _) fun _ => .check fun token _ => .ite (fun hkind => ?_)
      fun _ => .pure _
    have hopens : token.kind ≠ .rightBrace := by
      rw [of_decide_eq_true hkind]
      simp
    exact (dwells_skipBalanced.of_token hopens).bind fun _ => .pure _
  · exact (dwells_directiveConfig true).bind fun _ => .pure _
  · exact (dwells_directiveConfig true).bind fun _ => .pure _
  split
  · exact (dwells_directiveConfig allowBody).bind fun _ => .pure _
  split
  · exact (dwells_directiveConfig allowBody).bind fun _ => .pure _
  refine .ite (fun _ => ?_) fun _ => dwells_traitDirective name allowBody
  exact (dwells_lifecycle _).bind fun _ => .pure _

theorem dwells_directiveWith (allowBody : Bool) :
    DwellsAt (fun token => token.kind = .at) after (directiveWith held allowBody) := by
  refine .current fun mark hmark => (dwells_advance_of (by rw [hmark]; simp)).bind fun _ =>
    .current fun name _ => .ite (fun hname => ?_) fun _ => ?_
  · exact (dwells_advance_of (by rw [hname]; simp)).bind fun _ =>
      (dwells_directiveNamed hheld name _ mark.position allowBody).bind fun _ => .pure _
  · exact .rest (resting_unexpected _) fun _ => .pure none

end

theorem dwells_level (levels : Nat) : (level levels).Dwells after := by
  induction levels with
  | zero => exact ⟨fun _ _ _ _ => leads_throw, fun _ _ _ _ _ => leads_throw, fun _ _ _ _ => leads_throw⟩
  | succ levels ih =>
      exact ⟨dwells_elementWith ih, dwells_directiveWith ih, dwells_conditionalWith ih⟩

end Parser
end SceneLang
