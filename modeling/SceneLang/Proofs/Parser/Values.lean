import SceneLang.Proofs.Parser.Recovery

/-!
# Values keep the cursor going forward

The loops of lists, objects and operators read a token in every turn but the last one.  The
parameters of a function are the one loop that does not look for the end; it is entered only
where the tokens ahead are known to be parameters.  Values within values are followed as long
as the nesting allows, so that their recursion never reaches its bottom.
-/

namespace SceneLang
namespace Parser

variable {α β : Type} {bound depth : Nat} {context : Context} {state : State}

theorem steady_expectClosing (delimiter : Delimiter) :
    Steady bound depth (expectClosing delimiter) := by
  apply (steady_eat delimiter.closing).bind
  intro closed
  apply Steady.ite (.pure ())
  exact (resting_unexpected _).steady.bind fun _ => (resting_setValueFailed true).steady

theorem steady_ifFailed {recover : Parser Unit} (h : Steady bound depth recover) :
    Steady bound depth (ifFailed recover) :=
  resting_valueFailed.steady.bind fun _ => .ite h (.pure ())

theorem turning_chainTurn {operator? : TokenKind → Option BinaryOp} {operand : Parser Value}
    (hoperator : operator? .eof = none) (hoperand : Steady bound depth operand) (left : Value) :
    Turning bound depth (chainTurn operator? operand left) := by
  intro context state hwithin
  rw [chainTurn, returns_bind, returns_currentKind hwithin.ended]
  split
  next => exact returns_pure.mpr (Keeps.refl state)
  next op hop =>
    have heof : state.token.kind ≠ .eof := by
      intro hkind
      rw [hkind, hoperator] at hop
      contradiction
    exact (reading_advance.bind fun _ => hoperand.bind fun _ => .pure _).turn hwithin heof

theorem steady_chain {operator? : TokenKind → Option BinaryOp} {operand : Parser Value}
    (hoperator : operator? .eof = none) (hoperand : Steady bound depth operand) :
    Steady bound depth (chain operator? operand) :=
  hoperand.bind fun _ => .iterate (turning_chainTurn hoperator hoperand)

section

variable {inner : Inner} (hinner : ∀ strength, Steady bound depth (inner strength))
include hinner

/-! ## Lists -/

theorem steady_sequenceItem : Steady bound depth (sequenceItem inner) := by
  apply (steady_eat .spread).bind
  intro spread
  refine Steady.ite ?_ (hinner .any)
  exact (resting_use .spread).steady.bind fun _ => (hinner .any).bind fun _ => .pure _

omit hinner in
theorem steady_sequenceNext (delimiter : Delimiter) (items : List Value) :
    Steady bound depth (sequenceNext delimiter items) := by
  apply (steady_eat .comma).bind
  intro _
  apply Steady.ite (.pure _)
  apply (resting_check _).steady.bind
  intro _
  apply Steady.ite (.pure _)
  exact (steady_expectClosing delimiter).bind fun _ => .pure _

omit hinner in
/-- Behind an item that reads nothing there is no closing token to go on for. -/
theorem turn_sequenceNext {delimiter : Delimiter} {items : List Value}
    (hwithin : Within bound depth state) (hopen : state.token.kind ≠ delimiter.closing) :
    Returns (sequenceNext delimiter items) context state (Turn state) := by
  rw [sequenceNext, returns_bind, returns_eat hwithin.ended]
  constructor
  · intro hcomma
    exact returns_pure.mpr (advance_reads hwithin.ended (by simp [hcomma]))
  · intro _
    rw [if_neg Bool.false_ne_true, returns_bind, returns_check hwithin.ended, returns_ite]
    constructor
    · intro hclosing
      exact absurd (of_decide_eq_true hclosing) hopen
    intro _
    exact (steady_expectClosing delimiter).turning (fun _ => .done _) context state hwithin

theorem turning_sequenceTurn (delimiter : Delimiter) (items : List Value) :
    Turning bound depth (sequenceTurn inner delimiter items) := by
  intro context state hwithin
  rw [sequenceTurn, returns_bind, returns_eat hwithin.ended]
  constructor
  · intro _
    exact returns_pure.mpr (advance_keeps hwithin.ended)
  intro hopen
  rw [if_neg Bool.false_ne_true, returns_bind, returns_currentKind hwithin.ended, returns_ite]
  constructor
  · intro _
    exact (steady_expectClosing delimiter).turning (fun _ => .done _) context state hwithin
  intro _
  have hitem : Steady bound depth (do
      setValueFailed false
      let item ← sequenceItem inner
      ifFailed recoverInList
      return item) :=
    (resting_setValueFailed false).steady.bind fun _ => (steady_sequenceItem hinner).bind fun _ =>
      (steady_ifFailed steady_recoverInList).bind fun _ => .pure _
  have hsplit := hitem context state hwithin
  simp only [returns_bind, returns_pure] at hsplit ⊢
  apply hsplit.mono
  intro _ first hfirst
  apply hfirst.mono
  intro item second hsecond
  apply hsecond.mono
  intro _ next hkeeps
  by_cases hlength : next.ahead.length < state.ahead.length
  · apply (steady_sequenceNext delimiter _ context next (hwithin.keeps hkeeps)).mono
    intro result last hlast
    exact .of_reads (Reads.keeps ⟨hkeeps, hlength⟩ hlast) result
  · have htoken := hkeeps.moved.token_eq (Nat.le_of_not_lt hlength)
    rw [← htoken] at hopen
    exact (turn_sequenceNext (hwithin.keeps hkeeps) hopen).mono fun _ _ hturn =>
      hturn.after_keeps hkeeps

theorem steady_sequence (delimiter : Delimiter) :
    Steady bound depth (sequence inner delimiter) := by
  refine Steady.bind (.iterate fun found => turning_sequenceTurn hinner delimiter found.1) ?_
  rintro ⟨found, closed⟩
  refine Steady.ite ?_ (.pure _)
  exact (resting_setValueFailed false).steady.bind fun _ => .pure _

/-! ## Objects -/

theorem steady_fieldValue (key : Token) : Steady bound depth (fieldValue inner key) := by
  apply resting_currentKind.steady.bind
  intro kind
  refine Steady.ite ?_ (Steady.ite (.pure _) ?_)
  · exact steady_advance.bind fun _ => hinner .any
  · exact (resting_report _).steady.bind fun _ => hinner .any

omit hinner in
theorem steady_strayEntry : Steady bound depth strayEntry := by
  refine resting_currentKind.steady.bind fun kind => (resting_unexpected _).steady.bind fun _ =>
    (resting_setValueFailed true).steady.bind fun _ => ?_
  apply Steady.ite
  · exact steady_advance.bind fun _ => steady_recoverInList
  · exact steady_skipValue.bind fun _ => steady_recoverInList

omit hinner in
/-- What is no entry of an object is stepped over: a closing token at once, and anything else
by the skip to the next comma at the latest. -/
theorem reading_strayEntry :
    Reading (fun kind => kind ≠ .comma ∧ kind.endsBlock = false) bound depth strayEntry := by
  rintro context state hwithin ⟨hcomma, hends⟩
  rw [strayEntry, returns_bind, returns_currentKind hwithin.ended]
  by_cases hclosing : state.token.kind = .rightParen ∨ state.token.kind = .rightBracket
  · have hreads : Reading (· ≠ .eof) bound depth (do advance; recoverInList) :=
      reading_advance.bind fun _ => steady_recoverInList
    simp only [if_pos hclosing]
    refine ((resting_unexpected _).reading fun _ => (resting_setValueFailed true).reading fun _ =>
      hreads) context state hwithin ?_
    rcases hclosing with hkind | hkind <;> simp [hkind]
  · have hreads : Reading (fun kind => kind ≠ .comma ∧ kind.isCloser = false) bound depth
        (do skipValue; recoverInList) :=
      steady_skipValue.reading (fun _ => steady_recoverInList) fun _ => reading_recoverInList
    simp only [if_neg hclosing]
    refine ((resting_unexpected _).reading fun _ => (resting_setValueFailed true).reading fun _ =>
      hreads) context state hwithin ⟨hcomma, ?_⟩
    cases hkind : state.token.kind <;>
      simp_all [TokenKind.isCloser, TokenKind.endsBlock]

omit hinner in
theorem resting_reportOpenObject (opening last : Token) :
    Resting bound depth (reportOpenObject opening last) :=
  resting_endPosition.bind fun _ => resting_report _

theorem turning_objectTurn (opening : Token) (entries : List ObjectEntry) :
    Turning bound depth (objectTurn inner opening entries) := by
  intro context state hwithin
  rw [objectTurn, returns_bind, returns_current hwithin.ended]
  have hfield : ∀ key, Steady bound depth (do
      let value ← fieldValue inner key
      ifFailed recoverInList
      return ForInStep.yield (.field key.text value :: entries, false)) := fun key =>
    (steady_fieldValue hinner key).bind fun _ =>
      (steady_ifFailed steady_recoverInList).bind fun _ => .pure _
  split
  next hkind => exact (reading_advance.bind fun _ => .pure _).turn hwithin (by simp [hkind])
  next =>
    refine (resting_reportOpenObject opening _).steady.turning (fun _ => ?_) context state hwithin
    exact (resting_setValueFailed true).steady.turning fun _ => .done _
  next hkind => exact (reading_advance.bind fun _ => .pure _).turn hwithin (by simp [hkind])
  next hkind => exact (reading_advance.bind fun _ => .pure _).turn hwithin (by simp [hkind])
  next hkind =>
    refine (reading_advance.bind fun _ => ?_).turn hwithin (by simp [hkind])
    exact (resting_use .spread).steady.bind fun _ => (hinner .any).bind fun _ =>
      (steady_ifFailed steady_recoverInList).bind fun _ => .pure _
  next hkind => exact (reading_advance.bind fun _ => hfield _).turn hwithin (by simp [hkind])
  next hkind => exact (reading_advance.bind fun _ => hfield _).turn hwithin (by simp [hkind])
  next hkind => exact (reading_advance.bind fun _ => hfield _).turn hwithin (by simp [hkind])
  next hkind => exact (reading_advance.bind fun _ => hfield _).turn hwithin (by simp [hkind])
  next hkind => exact (reading_advance.bind fun _ => hfield _).turn hwithin (by simp [hkind])
  next hbrace heof hcomma _ _ _ _ _ _ _ =>
    exact (reading_strayEntry.bind fun _ => .pure _).turn hwithin
      ⟨hcomma, endsBlock_eq_false hbrace heof⟩

theorem steady_objectEntries : Steady bound depth (objectEntries inner) := by
  apply resting_current.steady.bind
  intro opening
  apply steady_advance.bind
  intro _
  apply Steady.bind (.iterate fun found => turning_objectTurn hinner opening found.1)
  rintro ⟨found, closed⟩
  refine Steady.ite ?_ (.pure _)
  exact (resting_setValueFailed false).steady.bind fun _ => .pure _

/-! ## Functions -/

omit hinner in
theorem opensArrow_of_paramsAhead {tokens : List Token} (h : paramsAhead tokens = true) :
    opensArrow tokens = true := by
  unfold opensArrow
  split
  next => rfl
  next => exact h

omit hinner in
/-- A parameter is a name, behind dots or not, and in front of a comma and more parameters, or
of the closing parenthesis. -/
theorem paramsAhead_cases {tokens : List Token} (h : paramsAhead tokens = true) :
    ∃ dots name next rest, tokens = dots ++ name :: next :: rest ∧
      (dots = [] ∨ ∃ token, dots = [token] ∧ token.kind = .spread) ∧ name.kind = .identifier ∧
      (next.kind = .comma ∧ opensArrow rest = true ∨
        next.kind = .rightParen ∧ opensArrow (next :: rest) = true) := by
  unfold paramsAhead at h
  split at h
  next name comma rest =>
    exact ⟨[], _, _, rest, rfl, .inl rfl, rfl, .inl ⟨rfl, opensArrow_of_paramsAhead h⟩⟩
  next rest =>
    exact ⟨[_], _, _, rest, rfl, .inr ⟨_, rfl, rfl⟩, rfl,
      .inl ⟨rfl, opensArrow_of_paramsAhead h⟩⟩
  next => exact ⟨[], _, _, _, rfl, .inl rfl, rfl, .inr ⟨rfl, rfl⟩⟩
  next => exact ⟨[_], _, _, _, rfl, .inr ⟨_, rfl, rfl⟩, rfl, .inr ⟨rfl, rfl⟩⟩
  next => exact absurd h Bool.false_ne_true

omit hinner in
theorem opensArrow_cases {tokens : List Token} (h : opensArrow tokens = true) :
    (∃ closing rest, tokens = closing :: rest ∧ closing.kind = .rightParen) ∨
      paramsAhead tokens = true := by
  unfold opensArrow at h
  split at h
  next => exact .inl ⟨_, _, rfl, rfl⟩
  next => exact .inr h

omit hinner in
theorem returns_paramName {flag : Bool} {name next : Token} {rest : List Token}
    (hended : Ended state.ahead) (hahead : state.ahead = name :: next :: rest)
    (hname : name.kind = .identifier)
    (hnext : next.kind = .comma ∧ opensArrow rest = true ∨
      next.kind = .rightParen ∧ opensArrow (next :: rest) = true) :
    Returns (paramName flag) context state fun _ last =>
      Reads state last ∧ opensArrow last.ahead = true := by
  have hvisible : state.visibleFrom 0 = name :: next :: rest := by
    rw [State.visibleFrom, hahead]
    exact visible_cons (by simp [hname, TokenKind.isLayout])
  have heof : name.kind ≠ .eof := by simp [hname]
  have htoken := State.token_of_visible hvisible
  have hreads : Reads state state.advance := advance_reads hended (by rwa [htoken])
  have hended' := hreads.moved.ended hended
  have hadvance : state.advance.ahead = next :: rest := by
    rw [State.advance_of_visible hvisible heof]
  have hvisible' : state.advance.visibleFrom 0 = next :: rest := by
    rw [State.visibleFrom, hadvance]
    rcases hnext with ⟨hkind, -⟩ | ⟨hkind, -⟩ <;>
      exact visible_cons (by simp [hkind, TokenKind.isLayout])
  have htoken' := State.token_of_visible hvisible'
  rw [paramName, returns_bind, returns_current hended, returns_bind, returns_advance hended,
    returns_bind, returns_eat hended', htoken']
  constructor
  · intro hcomma
    have hrest : opensArrow rest = true := by
      rcases hnext with ⟨-, hrest⟩ | ⟨hparen, -⟩
      · exact hrest
      · rw [hparen] at hcomma
        contradiction
    have hreads' := advance_reads hended' (by rw [htoken', hcomma]; simp)
    rw [returns_pure, State.advance_of_visible hvisible' (by simp [hcomma])]
    rw [State.advance_of_visible hvisible' (by simp [hcomma])] at hreads'
    exact ⟨hreads.trans hreads', hrest⟩
  · intro hcomma
    rcases hnext with ⟨hkind, -⟩ | ⟨-, harrow⟩
    · exact absurd hkind hcomma
    · rw [returns_pure, hadvance]
      exact ⟨hreads, harrow⟩

omit hinner in
/-- Among the parameters of a function every turn reads one of them, or is the last. -/
theorem returns_paramTurn {params : List ArrowParam} (hended : Ended state.ahead)
    (harrow : opensArrow state.ahead = true) :
    Returns (paramTurn params) context state fun result next =>
      match result with
      | .done _ => Keeps state next
      | .yield _ => Reads state next ∧ opensArrow next.ahead = true := by
  rw [paramTurn, returns_bind, returns_eat hended]
  constructor
  · intro _
    exact returns_pure.mpr (advance_keeps hended)
  intro hclosing
  rcases opensArrow_cases harrow with ⟨closing, rest, hahead, hkind⟩ | hparams
  · have hvisible : state.visibleFrom 0 = closing :: rest := by
      rw [State.visibleFrom, hahead]
      exact visible_cons (by simp [hkind, TokenKind.isLayout])
    rw [State.token_of_visible hvisible] at hclosing
    exact absurd hkind hclosing
  obtain ⟨dots, name, next, rest, hahead, hdots, hname, hnext⟩ := paramsAhead_cases hparams
  rw [if_neg Bool.false_ne_true, returns_bind, returns_eat hended]
  rcases hdots with rfl | ⟨dot, rfl, hdot⟩
  · have hvisible : state.visibleFrom 0 = name :: next :: rest := by
      rw [State.visibleFrom, hahead]
      exact visible_cons (by simp [hname, TokenKind.isLayout])
    rw [State.token_of_visible hvisible]
    constructor
    · intro hspread
      exact absurd hspread (by simp [hname])
    intro _
    rw [if_neg Bool.false_ne_true, returns_bind]
    apply (returns_paramName hended hahead hname hnext).mono
    intro _ _ hlast
    exact returns_pure.mpr hlast
  · have hvisible : state.visibleFrom 0 = dot :: name :: next :: rest := by
      rw [State.visibleFrom, hahead]
      exact visible_cons (by simp [hdot, TokenKind.isLayout])
    have heof : dot.kind ≠ .eof := by simp [hdot]
    rw [State.token_of_visible hvisible]
    constructor
    · intro _
      have hreads : Reads state state.advance :=
        advance_reads hended (by rwa [State.token_of_visible hvisible])
      have hadvance : state.advance.ahead = name :: next :: rest := by
        rw [State.advance_of_visible hvisible heof]
      rw [if_pos rfl, returns_bind]
      apply (returns_use .spread state.advance).mono
      intro _ used hsame
      have hended' : Ended used.ahead := by
        rw [hsame.ahead]
        exact hreads.moved.ended hended
      rw [returns_bind]
      apply (returns_paramName hended' (hsame.ahead.trans hadvance) hname hnext).mono
      intro _ last hlast
      exact returns_pure.mpr ⟨(hreads.keeps hsame.keeps).trans hlast.1, hlast.2⟩
    · intro hspread
      exact absurd hdot hspread

omit hinner in
theorem returns_arrowParams (hended : Ended state.ahead)
    (harrow : state.token.kind ≠ .identifier → state.token.kind = .leftParen ∧
      opensArrow (state.visibleFrom 0).tail = true) :
    Returns arrowParams context state fun _ next => Keeps state next := by
  have hkeeps := advance_keeps hended
  have hended' := hkeeps.moved.ended hended
  rw [arrowParams, returns_bind, returns_current hended, returns_bind, returns_advance hended,
    returns_ite]
  constructor
  · intro _
    exact returns_pure.mpr hkeeps
  intro hname
  obtain ⟨hparen, hopens⟩ := harrow hname
  obtain ⟨rest, hvisible⟩ := exists_visibleFrom hended 0
  have hadvance : state.advance.ahead = (state.visibleFrom 0).tail := by
    rw [State.advance_of_visible hvisible (by rw [← State.token]; simp [hparen]), hvisible]
    rfl
  have hloop : Returns (iterate [] paramTurn) context state.advance
      fun _ next => Keeps state.advance next := by
    refine Returns.iterate
      (fun _ next => Keeps state.advance next ∧ opensArrow next.ahead = true)
      ⟨.refl _, by rwa [hadvance]⟩ ?_
    rintro params next ⟨hnext, harrow⟩
    apply (returns_paramTurn (hnext.moved.ended hended') harrow).mono
    intro result last hlast
    cases result with
    | done params => exact hnext.trans hlast
    | yield params => exact ⟨⟨(hnext.reads hlast.1).toKeeps, hlast.2⟩, hlast.1.shorter⟩
  rw [returns_bind]
  apply hloop.mono
  intro _ next hnext
  exact returns_pure.mpr (hkeeps.trans hnext)

theorem returns_arrow (hwithin : Within bound depth state)
    (harrow : state.token.kind ≠ .identifier → state.token.kind = .leftParen ∧
      opensArrow (state.visibleFrom 0).tail = true) :
    Returns (arrow inner) context state fun _ next => Keeps state next := by
  rw [arrow, returns_bind]
  apply (returns_use .arrowFunctions state).mono
  intro _ used hsame
  have hwithin' := hwithin.keeps hsame.keeps
  rw [returns_bind]
  refine (returns_arrowParams hwithin'.ended ?_).mono fun params next hnext => ?_
  · rwa [hsame.token, hsame.visibleFrom]
  have hbody : Steady bound depth (do
      let _ ← eat .fatArrow
      if ← check .leftBrace then return Value.arrow params (.block (← blockText))
      else return .arrow params (.expr (← inner .any))) := by
    apply (steady_eat .fatArrow).bind
    intro _
    apply (resting_check .leftBrace).steady.bind
    intro _
    apply Steady.ite
    · exact steady_blockText.bind fun _ => .pure _
    · exact (hinner .any).bind fun _ => .pure _
  exact hbody.after_keeps (hwithin'.keeps hnext) (hsame.keeps.trans hnext)

/-! ## Primary values and operators -/

omit hinner in
theorem resting_interpolation (text : String) : Resting bound depth (interpolation text) := by
  intro context state _
  rw [interpolation, returns_bind]
  apply (returns_use .interpolation state).mono
  intro _ next hnext
  rw [returns_bind, returns_get, returns_bind, returns_modify, returns_pure]
  exact hnext.trans ⟨rfl, rfl, rfl, .single (.interpolation next text)⟩

theorem steady_primary : Steady bound depth (primary inner) := by
  intro context state hwithin
  have hread {value : Value} : Steady bound depth (do advance; return value) :=
    steady_advance.bind fun _ => .pure value
  rw [primary, returns_bind, returns_current hwithin.ended]
  split
  next => exact hread context state hwithin
  next =>
    exact ((resting_reportUnterminated _).steady.bind fun _ => hread) context state hwithin
  next => exact hread context state hwithin
  next => exact hread context state hwithin
  next => exact hread context state hwithin
  next =>
    exact (steady_advance.bind fun _ => (resting_interpolation _).steady) context state hwithin
  next hname =>
    rw [returns_bind, returns_peekKind hwithin.ended, returns_ite]
    constructor
    · intro _
      exact returns_arrow hinner hwithin fun h => absurd hname h
    intro _
    exact hread context state hwithin
  next hparen =>
    rw [returns_bind, arrowAhead, returns_bind, returns_get, returns_pure, returns_ite]
    constructor
    · intro harrow
      exact returns_arrow hinner hwithin fun _ => ⟨hparen, harrow⟩
    intro _
    exact (steady_advance.bind fun _ => (hinner .any).bind fun _ =>
      (steady_expectClosing .paren).bind fun _ => .pure _) context state hwithin
  next =>
    exact (steady_advance.bind fun _ => (steady_sequence hinner .bracket).bind fun _ =>
      .pure _) context state hwithin
  next => exact ((steady_objectEntries hinner).bind fun _ => .pure _) context state hwithin
  next =>
    exact ((resting_unexpected _).steady.bind fun _ => (resting_setValueFailed true).steady.bind
      fun _ => steady_skipValue.bind fun _ => .pure _) context state hwithin

theorem turning_postfixTurn (value : Value) :
    Turning bound depth (postfixTurn inner value) := by
  intro context state hwithin
  rw [postfixTurn, returns_bind, returns_current hwithin.ended, returns_bind, previousLine,
    returns_bind, returns_get, returns_pure]
  dsimp only
  split
  next hdot =>
    refine (reading_advance.bind fun _ => ?_).turn hwithin (by simp [hdot])
    apply resting_current.steady.bind
    intro name
    apply Steady.ite
    · exact steady_advance.bind fun _ => .pure _
    · exact (resting_unexpected _).steady.bind fun _ =>
        (resting_setValueFailed true).steady.bind fun _ => .pure _
  next hbracket =>
    rw [returns_ite]
    constructor
    · intro _
      refine (reading_advance.bind fun _ => ?_).turn hwithin (by simp [hbracket])
      exact (hinner .any).bind fun _ => (steady_expectClosing .bracket).bind fun _ => .pure _
    · intro _
      exact returns_pure.mpr (Keeps.refl state)
  next hparen =>
    rw [returns_ite]
    constructor
    · intro _
      refine (reading_advance.bind fun _ => ?_).turn hwithin (by simp [hparen])
      exact (steady_sequence hinner .paren).bind fun _ => .pure _
    · intro _
      exact returns_pure.mpr (Keeps.refl state)
  next => exact returns_pure.mpr (Keeps.refl state)

omit hinner in
theorem turning_prefixTurn (ops : List UnaryOp) : Turning bound depth (prefixTurn ops) := by
  intro context state hwithin
  rw [prefixTurn, returns_bind, returns_currentKind hwithin.ended]
  split
  next hkind => exact (reading_advance.bind fun _ => .pure _).turn hwithin (by simp [hkind])
  next hkind => exact (reading_advance.bind fun _ => .pure _).turn hwithin (by simp [hkind])
  next => exact returns_pure.mpr (Keeps.refl state)

theorem steady_unary : Steady bound depth (unary inner) := by
  refine Steady.bind (.iterate turning_prefixTurn) fun ops => Steady.bind ?_ fun _ => .pure _
  exact (steady_primary hinner).bind fun value => .iterate (turning_postfixTurn hinner)

theorem steady_equality : Steady bound depth (equality inner) :=
  steady_chain rfl (steady_chain rfl (steady_chain rfl (steady_chain rfl (steady_unary hinner))))

theorem steady_conditional : Steady bound depth (conditional inner) := by
  apply resting_valueFailed.steady.bind
  intro _
  apply (steady_equality hinner).bind
  intro condition
  apply resting_valueFailed.steady.bind
  intro _
  apply Steady.ite (.pure condition)
  apply (steady_eat .question).bind
  intro _
  refine Steady.ite ?_ (.pure condition)
  apply (hinner .any).bind
  intro thenBranch
  apply (steady_eat .colon).bind
  intro _
  apply Steady.ite
  · exact (hinner .conditional).bind fun _ => .pure _
  · exact (resting_unexpected _).steady.bind fun _ =>
      (resting_setValueFailed true).steady.bind fun _ => .pure _

theorem steady_coalesce : Steady bound depth (coalesce inner) :=
  steady_chain rfl (steady_chain rfl (steady_chain rfl (steady_conditional hinner)))

end

end Parser
end SceneLang
