import SceneLang.Proofs.Parser.Logic

/-!
# Directives keep the cursor going forward

A directive reads its mark before anything that it holds.  A conditional is the one that holds
more behind its body: where it sees `@else` behind line breaks, it steps to that very mark.
The levels are then steady one by one, each with one token more ahead than the one inside it.
-/

namespace SceneLang
namespace Parser

variable {bound depth : Nat} {context : Context} {state : State}

/-! ## Conditions -/

theorem steady_loopVariable : Steady bound depth loopVariable := by
  apply resting_current.steady.bind
  intro token
  apply Steady.ite
  · exact steady_advance.bind fun _ => .pure _
  · exact (resting_unexpected _).steady.bind fun _ => .pure _

theorem steady_skipCondition : Steady bound depth skipCondition := by
  apply steady_skipUntil
  intro context state hwithin
  rw [returns_bind, returns_currentKind hwithin.ended, returns_pure]
  exact ⟨rfl, fun heof => by simp [heof, TokenKind.endsBlock]⟩

theorem steady_conditionText : Steady bound depth conditionText :=
  resting_current.steady.bind fun _ => (steady_valueOr steady_skipCondition).bind fun _ =>
    (resting_setValueFailed false).steady.bind fun _ => resting_previousSpan.steady.bind fun _ =>
      (resting_sliceBetween _ _).steady.bind fun _ => .pure _

/-! ## The mark of another branch -/

/-- Layout in front of other tokens is seen outside braces only. -/
theorem depth_of_visible_layout {tokens rest : List Token} {token next : Token}
    (hvisible : visible depth tokens = token :: next :: rest)
    (hlayout : token.kind.isLayout = true) : depth = 0 := by
  induction tokens using visible.induct depth with
  | case1 first second others hhidden ih =>
      rw [visible, if_pos hhidden] at hvisible
      exact ih hvisible
  | case2 first second others hshown =>
      rw [visible, if_neg hshown] at hvisible
      injection hvisible with hfirst _
      rw [hfirst, hlayout, Bool.and_true, decide_eq_true_eq] at hshown
      exact Nat.eq_zero_of_not_pos hshown
  | case3 tokens hshort =>
      rw [visible] at hvisible
      · exact absurd hvisible (hshort token next rest)
      · exact hshort

theorem ended_behindBreaks (hended : Ended state.ahead) : Ended state.behindBreaks := by
  have hvisible := hended.visibleFrom 0
  have hsplit : (state.visibleFrom 0).takeWhile (·.kind = .newline) ++ state.behindBreaks =
      state.visibleFrom 0 := List.takeWhile_append_dropWhile
  by_cases hnil : state.behindBreaks = []
  · -- Otherwise all that can be seen are line breaks, the end included.
    obtain ⟨last, hlast, hkind⟩ := Option.map_eq_some_iff.mp hvisible
    have hmem := List.mem_of_getLast? hlast
    rw [← hsplit, hnil, List.append_nil] at hmem
    have hbreak := List.all_eq_true.mp List.all_takeWhile last hmem
    rw [decide_eq_true_eq, hkind] at hbreak
    contradiction
  · rw [← hsplit] at hvisible
    exact (ended_append hnil).mp hvisible

theorem returns_elseAhead (hended : Ended state.ahead) :
    Returns elseAhead context state fun answer next => next = state ∧
      (answer = true → ∃ mark rest, state.behindBreaks = mark :: rest ∧ mark.kind = .at) := by
  have hbehind := ended_behindBreaks hended
  rw [elseAhead, returns_bind, returns_get]
  cases hbreaks : state.behindBreaks with
  | nil => exact absurd hbreaks hbehind.ne_nil
  | cons mark rest =>
      rw [hbreaks] at hbehind
      have hwords : Ended (visible state.braceDepth (behind (mark :: rest))) :=
        hbehind.behind.visible
      cases hword : visible state.braceDepth (behind (mark :: rest)) with
      | nil => exact absurd hword hwords.ne_nil
      | cons word others =>
          simp only [hword]
          rw [returns_pure]
          refine ⟨rfl, fun helse => ⟨mark, rest, rfl, ?_⟩⟩
          simp only [Bool.and_eq_true, decide_eq_true_eq] at helse
          exact helse.1

theorem resting_elseAhead : Resting bound depth elseAhead := by
  intro context state hwithin
  apply (returns_elseAhead hwithin.ended).mono
  rintro answer _ ⟨rfl, -⟩
  exact .refl _

theorem steady_skipNewlines : Steady bound depth skipNewlines := by
  apply steady_skipUntil
  intro context state hwithin
  rw [returns_bind, returns_check hwithin.ended, returns_pure]
  exact ⟨rfl, fun heof => by simp [heof]⟩

theorem returns_skipNewlines {mark : Token} {rest : List Token} (hwithin : Within bound depth state)
    (hbreaks : state.behindBreaks = mark :: rest) :
    Returns skipNewlines context state fun _ next => Keeps state next ∧ next.token = mark := by
  refine Returns.iterate (fun _ next => Keeps state next ∧ next.behindBreaks = mark :: rest)
    ⟨.refl state, hbreaks⟩ ?_
  rintro _ next ⟨hkeeps, hnext⟩
  have hwithin' := hwithin.keeps hkeeps
  obtain ⟨others, hvisible⟩ := exists_visibleFrom hwithin'.ended 0
  have hvisible : next.visibleFrom 0 = next.token :: others := hvisible
  rw [State.behindBreaks, hvisible] at hnext
  rw [skipTurn, returns_bind, returns_bind, returns_check hwithin'.ended, returns_pure]
  by_cases hbreak : next.token.kind = .newline
  · rw [List.dropWhile_cons_of_pos (by simp [hbreak])] at hnext
    have hreads := advance_reads hwithin'.ended (by simp [hbreak])
    have hdepth : next.braceDepth = 0 := by
      cases others with
      | nil => contradiction
      | cons second others =>
          exact depth_of_visible_layout hvisible (by simp [hbreak, TokenKind.isLayout])
    have hadvance : next.advance.behindBreaks = others.dropWhile (·.kind = .newline) := by
      rw [State.behindBreaks, State.visibleFrom,
        State.advance_of_visible hvisible (by simp [hbreak]), hdepth, hbreak]
      exact congrArg _ (visible_zero others)
    have hskip : Returns skipBalanced context next fun _ last => last = next.advance := by
      rw [skipBalanced, returns_bind, returns_currentKind hwithin'.ended, hbreak]
      change Returns (do advance; return true) context next _
      rw [returns_bind, returns_advance hwithin'.ended, returns_pure]
    simp only [hbreak, decide_true, Bool.not_true, if_neg Bool.false_ne_true, returns_bind,
      returns_pure]
    apply hskip.mono
    rintro _ last rfl
    exact ⟨⟨(hkeeps.reads hreads).toKeeps, by rw [hadvance, hnext]⟩, hreads.shorter⟩
  · rw [List.dropWhile_cons_of_neg (by simp [hbreak])] at hnext
    injection hnext with hmark _
    simp only [hbreak, decide_false, Bool.not_false, if_pos, returns_pure]
    exact ⟨hkeeps, hmark⟩

/-! ## Control flow -/

section

variable {held : Held} (hheld : Forward bound held)
include hheld

theorem steady_controlItem (nodes : List Node) : Steady bound depth (controlItem held nodes) := by
  apply resting_startPosition.steady.bind
  intro start
  apply (steady_bodyItem hheld _).bind
  intro item
  dsimp only
  split
  · exact .pure _
  · refine Steady.ite ?_ (.pure _)
    exact (resting_close item start).steady.bind fun _ => .pure _

/-- The body is in braces, so that one token more may be ahead of it. -/
theorem steady_controlBody : Steady (bound + 1) depth (controlBody held) :=
  (steady_braced (steady_controlItem hheld)).bind fun _ => .pure _

theorem steady_loop (form : LoopForm) : Steady (bound + 1) depth (loop held form) := by
  apply (resting_use .controlFlow).steady.bind
  intro _
  apply steady_loopVariable.bind
  intro item
  have hrest : Steady (bound + 1) depth (do
      let iterable ← conditionText
      return Directive.loop form item iterable (← controlBody held)) :=
    steady_conditionText.bind fun _ => (steady_controlBody hheld).bind fun _ => .pure _
  apply resting_current.steady.bind
  intro token
  apply Steady.ite
  · exact steady_advance.bind fun _ => hrest
  · exact (resting_unexpected _).steady.bind fun _ => hrest

theorem steady_elseBranch (start : Position) : Steady bound depth (elseBranch held start) := by
  intro context state hwithin
  have hbody : Steady bound depth (controlBody held) :=
    (steady_controlBody hheld).of_le (Nat.le_succ bound)
  rw [elseBranch, returns_bind, returns_current hwithin.ended, returns_bind,
    returns_peek hwithin.ended, returns_ite]
  constructor
  · intro hchained
    simp only [Bool.and_eq_true, decide_eq_true_eq] at hchained
    exact ((reading_attachDirective hheld true _).bind fun holder =>
      (resting_close holder start).steady.bind fun _ => .pure _).steadyAt hwithin hchained.1
  · intro _
    refine Steady.ite ?_ hbody context state hwithin
    exact steady_advance.bind fun _ => (hheld.conditional depth).bind fun _ =>
      (resting_close _ start).steady.bind fun _ => .pure _

theorem steady_conditionalWith : Steady (bound + 1) depth (conditionalWith held) := by
  apply (resting_use .controlFlow).steady.bind
  intro _
  apply steady_conditionText.bind
  intro condition
  apply (steady_controlBody hheld).bind
  intro body context state hwithin
  rw [returns_bind]
  apply (returns_elseAhead hwithin.ended).mono
  rintro answer next ⟨rfl, hmark⟩
  cases answer with
  | false => exact returns_pure.mpr (Keeps.refl next)
  | true =>
      obtain ⟨mark, rest, hbreaks, hat⟩ := hmark rfl
      rw [if_pos rfl, returns_bind]
      apply (returns_skipNewlines hwithin hbreaks).mono
      intro _ last hlast
      obtain ⟨hkeeps, htoken⟩ := hlast
      have hbranch : Reading (· ≠ .eof) (bound + 1) depth (do
          let start ← startPosition
          advance
          advance
          return Directive.conditional condition body (some (← elseBranch held start))) :=
        resting_startPosition.reading fun start => reading_advance.bind_inner fun _ =>
          steady_advance.bind fun _ => (steady_elseBranch hheld start).bind fun _ => .pure _
      have heof : last.token.kind ≠ .eof := by
        rw [htoken, hat]
        simp
      exact (hbranch.steadyAt (hwithin.keeps hkeeps) heof).mono fun _ _ h => hkeeps.trans h

end

/-! ## Imports -/

theorem steady_importSource : Steady bound depth importSource := by
  apply resting_current.steady.bind
  intro token
  apply Steady.ite
  · apply steady_advance.bind
    intro _
    apply resting_current.steady.bind
    intro path
    apply Steady.ite
    · exact steady_advance.bind fun _ => .pure _
    · exact (resting_unexpected _).steady.bind fun _ => .pure none
  · exact (resting_unexpected _).steady.bind fun _ => .pure none

theorem steady_importAlias : Steady bound depth importAlias := by
  apply resting_current.steady.bind
  intro token
  refine Steady.ite ?_ (.pure none)
  exact steady_advance.bind fun _ => steady_expectName _

theorem steady_importName (names : List ImportName) :
    Steady bound depth (importName names) := by
  apply resting_current.steady.bind
  intro token
  apply Steady.ite
  · exact steady_advance.bind fun _ => steady_importAlias.bind fun _ => .pure _
  · exact (resting_unexpected _).steady.bind fun _ => steady_advance.bind fun _ => .pure names

theorem steady_importDecl : Steady bound depth importDecl := by
  apply (resting_use .imports).steady.bind
  intro _
  apply resting_current.steady.bind
  intro token
  split
  · exact steady_advance.bind fun _ => steady_importAlias.bind fun _ => .pure _
  · exact (Steady.braced steady_importName).bind fun _ => steady_importSource.bind fun _ =>
      .pure _
  · exact steady_advance.bind fun _ => steady_importSource.bind fun _ => .pure _
  · exact (resting_unexpected _).steady.bind fun _ => .pure none

theorem resting_addImport (decl : ImportDecl) : Resting bound depth
    (modify fun state : State => { state with imports := state.imports ++ [decl] }) :=
  .modify fun state => ⟨rfl, rfl, rfl, .single (.imports state decl)⟩

theorem steady_importDirective : Steady bound depth importDirective := by
  apply steady_importDecl.bind
  intro found
  cases found with
  | none => exact .pure none
  | some decl => exact (resting_addImport decl).steady.bind fun _ => .pure _

/-! ## Directives -/

theorem resting_reportUnknown (name : Token) : Resting bound depth (reportUnknown name) := by
  apply resting_read.bind
  intro options
  exact Resting.ite (resting_report _) (.ite (resting_report _) (resting_report _))

theorem steady_traitDirective (name : Token) (allowBody : Bool) :
    Steady bound depth (traitDirective name allowBody) := by
  refine resting_read.steady.bind fun options => (steady_directiveConfig allowBody).bind
    fun config => Steady.ite ?_ ?_
  · exact (resting_use .traits).steady.bind fun _ => .pure _
  · exact (resting_reportUnknown name).steady.bind fun _ => .pure _

theorem steady_lifecycle (hook : String) : Steady bound depth (lifecycle hook) := by
  apply steady_paramList.bind
  intro params
  apply (resting_check .leftBrace).steady.bind
  intro _
  refine Steady.ite ?_ (.pure _)
  exact steady_blockText.bind fun _ => .pure _

section

variable {held : Held} (hheld : Forward bound held)
include hheld

theorem steady_directiveNamed (name : Token) (span : Span) (position : Position)
    (allowBody : Bool) :
    Steady bound depth (directiveNamed held name span position allowBody) := by
  have hloop (form : LoopForm) : Steady bound depth (loop held form) :=
    (steady_loop hheld form).of_le (Nat.le_succ bound)
  have hbody : Steady bound depth (controlBody held) :=
    (steady_controlBody hheld).of_le (Nat.le_succ bound)
  have hconditional : Steady bound depth (conditionalWith held) :=
    (steady_conditionalWith hheld).of_le (Nat.le_succ bound)
  unfold directiveNamed
  dsimp only
  refine Steady.ite ?_ (Steady.ite ?_ (Steady.ite ?_ (Steady.ite ?_ (Steady.ite ?_ ?_))))
  · exact (hloop .plain).bind fun _ => .pure _
  · exact (hloop .each).bind fun _ => .pure _
  · exact (resting_use .controlFlow).steady.bind fun _ => steady_conditionText.bind fun _ =>
      hbody.bind fun _ => .pure _
  · exact hconditional.bind fun _ => .pure _
  · apply (resting_report _).steady.bind
    intro _
    apply (resting_check .leftBrace).steady.bind
    intro _
    refine Steady.ite ?_ (.pure none)
    exact steady_skipBalanced.bind fun _ => .pure none
  apply resting_read.steady.bind
  intro options
  apply Steady.ite steady_importDirective
  refine Steady.ite ?_ (Steady.ite ?_ ?_)
  · exact (steady_directiveConfig true).bind fun _ => .pure _
  · exact (steady_directiveConfig true).bind fun _ => .pure _
  split
  · exact (steady_directiveConfig allowBody).bind fun _ => .pure _
  split
  · exact (steady_directiveConfig allowBody).bind fun _ => .pure _
  refine Steady.ite ?_ (steady_traitDirective name allowBody)
  exact (steady_lifecycle _).bind fun _ => .pure _

theorem reading_directiveWith (allowBody : Bool) :
    Reading (· = .at) (bound + 1) depth (directiveWith held allowBody) := by
  have hread : Reading (· ≠ .eof) (bound + 1) depth (directiveWith held allowBody) := by
    apply resting_current.reading
    intro mark
    apply reading_advance.bind_inner
    intro _
    apply resting_current.steady.bind
    intro name
    apply Steady.ite
    · exact steady_advance.bind fun _ =>
        (steady_directiveNamed hheld name _ _ allowBody).bind fun _ => .pure _
    · exact (resting_unexpected _).steady.bind fun _ => .pure none
  exact hread.weaken (by rintro _ rfl; simp)

end

/-- With as many levels as there are tokens ahead everything that is held goes forward. -/
theorem forward_level (levels : Nat) : Forward levels (level levels) := by
  induction levels with
  | zero =>
      exact ⟨fun _ _ _ hwithin => absurd hwithin not_within_zero,
        fun _ _ _ _ hwithin => absurd hwithin not_within_zero,
        fun _ _ _ hwithin => absurd hwithin not_within_zero⟩
  | succ levels ih =>
      exact ⟨fun _ => reading_elementWith ih, fun _ => reading_directiveWith ih,
        fun _ => steady_conditionalWith ih⟩

end Parser
end SceneLang
