import SceneLang.Proofs.Shelter.Recovery
import SceneLang.Proofs.Parser.Nesting

/-!
# Values stay within a block

Names, blocks and values within a block are read without closing a brace that was open before.
A block in braces, and an object, close the brace that they open.
-/

namespace SceneLang
namespace Parser

variable {α β : Type} {after : List Token} {opened : List Delimiter} {context : Context}
  {state next : State} {starts : Token → Prop}

/-! ## Names and blocks -/

theorem dwells_expectName (what : String) : DwellsAt starts after (expectName what) := by
  refine .current fun token _ => ?_
  split
  next hkind => exact (dwells_advance_of (by rw [hkind]; simp)).bind fun _ => .pure _
  next hkind => exact (dwells_advance_of (by rw [hkind]; simp)).bind fun _ => .pure _
  next hkind =>
    exact .rest (resting_reportUnterminated token) fun _ =>
      (dwells_advance_of (by rw [hkind]; simp)).bind fun _ => .pure _
  next => exact .rest (resting_unexpected _) fun _ => .pure _

section

variable {opening : Token} {item : β → Parser β}
  (hitem : ∀ value, DwellsAt (fun token => token.kind ≠ .rightBrace) after (item value))
include hitem

theorem dwells_bracedItem (value : β) :
    DwellsAt (fun token => token.kind ≠ .rightBrace) after (bracedItem (item value)) := by
  refine .rest resting_get fun _ => (hitem value).bind fun result => .rest resting_get fun _ => ?_
  refine .ite (fun _ => .currentKind fun token _ => .ite (fun _ => .pure _) fun hends => ?_)
    fun _ => .pure _
  have hbrace : token.kind ≠ .rightBrace := by
    intro hkind
    rw [hkind] at hends
    exact hends rfl
  exact (dwells_advance_of hbrace).bind fun _ => .pure _

theorem dwells_bracedTurn (value : β) :
    DwellsAt (fun token => token.kind ≠ .rightBrace) after (bracedTurn opening item value) := by
  refine .currentKind fun token hbrace => ?_
  split
  next hkind => exact absurd hkind hbrace
  next => exact .rest (resting_reportUnclosed opening) fun _ => .pure _
  next hkind => exact (dwells_advance_of hbrace).bind fun _ => .pure _
  next hkind => exact (dwells_advance_of hbrace).bind fun _ => .pure _
  next => exact (dwells_bracedItem hitem value).of_token hbrace

/-- Behind an opening brace items are read up to the brace that closes the block. -/
theorem leads_bracedItems {depth : Nat} {start : β} (h : Sheltered after state)
    (hdepth : depth < state.braceDepth) :
    Leads (iterate start (bracedTurn opening item)) context state fun _ next =>
      Among after next ∧ depth ≤ next.braceDepth := by
  refine Leads.iterate (fun _ next => Sheltered after next ∧ depth < next.braceDepth)
    ⟨h, hdepth⟩ ?_
  rintro value next ⟨hnext, hinner⟩
  by_cases hbrace : next.token.kind = .rightBrace
  · refine leads_currentKind hnext.state_ended ?_
    rw [hbrace]
    obtain ⟨hamong, hclosed⟩ := hnext.advance_closing hbrace
    exact leads_advance hnext.state_ended (leads_pure ⟨hamong, by omega⟩)
  · refine (dwells_bracedTurn hitem value context next hnext hbrace).mono fun result last hlast => ?_
    cases result with
    | done value => exact ⟨hlast.among, by have := hlast.depth_le; omega⟩
    | yield value => exact ⟨hlast.sheltered, Nat.lt_of_lt_of_le hinner hlast.depth_le⟩

theorem dwells_braced (start : β) : DwellsAt starts after (braced start item) := by
  intro context state hsheltered _
  refine leads_current hsheltered.state_ended (leads_eat hsheltered.state_ended
    (fun hbrace => ?_) fun _ => ?_)
  · obtain ⟨hnext, hdepth⟩ := hsheltered.advance_opening hbrace
    have hinner : state.braceDepth < state.advance.braceDepth := hdepth ▸ Nat.lt_succ_self _
    refine (leads_bracedItems hitem hnext hinner).mono fun _ last hlast => ?_
    exact ⟨hlast.1, hlast.2, Nat.lt_of_lt_of_le hsheltered.2 hlast.2⟩
  · have hreport : DwellsAt (fun _ => True) after (do
        unexpected "where '\x7b' was expected"
        return start) :=
      .rest (resting_unexpected _) fun _ => .pure _
    exact hreport context state hsheltered trivial

end

theorem dwells_captureBlock : DwellsAt starts after captureBlock := by
  refine .current fun opening _ => .ite (fun hkind => ?_) fun _ => ?_
  · refine (dwells_skipBalanced.of_token (by rw [hkind]; simp)).bind fun closed => ?_
    refine .ite (fun _ => ?_) fun _ => ?_
    · exact .rest resting_previousSpan fun _ => .rest (resting_sliceBetween _ _) fun _ => .pure _
    · exact .rest (resting_reportUnclosed opening) fun _ => .rest resting_read fun _ =>
        .rest (resting_sliceBetween _ _) fun _ => .pure _
  · exact .rest (resting_unexpected _) fun _ => .pure _

theorem dwells_blockText : DwellsAt starts after blockText :=
  dwells_captureBlock.bind fun _ => .pure _

/-! ## Parameters -/

/-- Parameters are read up to the parenthesis that closes them. -/
theorem leads_paramListTurn {params : List String} (h : Inside after (.paren :: opened) state) :
    Leads (paramListTurn params) context state fun result next =>
      match result with
      | .done _ => Inside after opened next
      | .yield _ => Inside after (.paren :: opened) next := by
  have hne : Delimiter.paren :: opened ≠ [] := List.cons_ne_nil _ _
  have hplain (hopening : Delimiter.ofOpening? state.token.kind = none)
      (hclosing : Delimiter.ofClosing? state.token.kind = none) :
      Inside after (.paren :: opened) state.advance := h.advance_plain hne hopening hclosing
  refine leads_current h.state_ended ?_
  split
  next hkind =>
    have hclosing : Delimiter.ofClosing? state.token.kind = some .paren := by rw [hkind]; rfl
    exact leads_advance h.state_ended (leads_pure (h.advance_closing hclosing).2)
  next hkind =>
    exact leads_advance h.state_ended (leads_pure (hplain (by rw [hkind]; rfl) (by rw [hkind]; rfl)))
  next hkind =>
    have hnext := hplain (by rw [hkind]; rfl) (by rw [hkind]; rfl)
    refine leads_advance h.state_ended (leads_current hnext.state_ended (.ite (fun hname => ?_) ?_))
    · have hlast := hnext.advance_plain hne (by rw [hname]; rfl) (by rw [hname]; rfl)
      exact leads_advance hnext.state_ended (leads_pure hlast)
    · exact fun _ => leads_pure hnext
  next hkind =>
    exact leads_advance h.state_ended (leads_pure (hplain (by rw [hkind]; rfl) (by rw [hkind]; rfl)))
  next =>
    have hwithin : Within state.ahead.length state.nesting state :=
      ⟨h.state_ended, Nat.le_refl _, rfl, h.nesting⟩
    refine (resting_unexpected _ context state hwithin).leads.bind fun _ next hsame => ?_
    exact (leads_skipToClosing (h.same hsame)).bind fun _ _ hlast => leads_pure hlast

theorem dwells_paramList : DwellsAt starts after paramList := by
  intro context state hsheltered _
  refine leads_eat hsheltered.state_ended (fun hkind => ?_) fun _ =>
    leads_pure (.refl hsheltered)
  obtain ⟨opened, hopened, hinside⟩ := hsheltered.exists_inside
  have hopening : Delimiter.ofOpening? state.token.kind = some .paren := by rw [hkind]; rfl
  have hloop : Leads (iterate [] paramListTurn) context state.advance
      fun _ next => Inside after opened next := by
    refine Leads.iterate (fun _ next => Inside after (.paren :: opened) next)
      (hinside.advance_opening hopened hopening) fun params next hnext => ?_
    exact (leads_paramListTurn hnext).mono fun result _ hlast => by cases result <;> exact hlast
  refine hloop.bind fun _ next hnext => leads_pure ?_
  have hdepth : state.braceDepth = next.braceDepth := hinside.depth.trans hnext.depth.symm
  exact ⟨⟨opened, hnext⟩, Nat.le_of_eq hdepth, hdepth ▸ hsheltered.2⟩

/-! ## Lists and objects -/

theorem closing_ne_rightBrace {delimiter : Delimiter} (h : delimiter ≠ .brace) :
    delimiter.closing ≠ .rightBrace := by
  cases delimiter with
  | brace => exact absurd rfl h
  | paren | bracket => simp [Delimiter.closing]

theorem dwells_expectClosing {delimiter : Delimiter} (h : delimiter ≠ .brace) :
    DwellsAt starts after (expectClosing delimiter) := by
  refine .eat (closing_ne_rightBrace h) (.pure _) fun _ _ _ => ?_
  exact .rest (resting_unexpected _) fun _ => .of_resting (resting_setValueFailed true)

theorem dwells_chain {operator? : TokenKind → Option BinaryOp} {operand : Parser Value}
    (hoperator : operator? .rightBrace = none) (hoperand : Dwells after operand) :
    DwellsAt starts after (chain operator? operand) := by
  refine DwellsAt.bind hoperand.at fun left => DwellsAt.iterate fun left => ?_
  refine .currentKind fun token _ => ?_
  split
  next => exact .pure _
  next op hop =>
    have hbrace : token.kind ≠ .rightBrace := by
      intro hkind
      rw [hkind, hoperator] at hop
      cases hop
    exact (dwells_advance_of hbrace).bind fun _ => hoperand.bind fun _ => .pure _

section

variable {inner : Inner} (hinner : ∀ strength, Dwells after (inner strength))
include hinner

theorem dwells_sequenceItem : DwellsAt starts after (sequenceItem inner) := by
  refine .eat (by simp) ?_ fun _ _ _ => (hinner .any).at
  exact .rest (resting_use _) fun _ => (hinner .any).bind fun _ => .pure _

omit hinner in
theorem dwells_sequenceNext {delimiter : Delimiter} (h : delimiter ≠ .brace)
    (items : List Value) : DwellsAt starts after (sequenceNext delimiter items) := by
  refine .eat (by simp) (.pure _) fun _ _ _ => .check fun _ _ => .ite (fun _ => .pure _) fun _ => ?_
  exact (dwells_expectClosing h).bind fun _ => .pure _

theorem dwells_sequence {delimiter : Delimiter} (h : delimiter ≠ .brace) :
    DwellsAt starts after (sequence inner delimiter) := by
  refine DwellsAt.bind (DwellsAt.iterate ?_) ?_
  · rintro ⟨items, closed⟩
    refine .eat (closing_ne_rightBrace h) (.pure _) fun _ _ _ => .currentKind fun _ _ =>
      .ite (fun _ => ?_) fun _ => ?_
    · exact (dwells_expectClosing h).bind fun _ => .pure _
    · exact .rest (resting_setValueFailed false) fun _ =>
        (dwells_sequenceItem hinner).bind fun _ =>
          (dwells_ifFailed dwells_recoverInList).bind fun _ => dwells_sequenceNext h _
  · rintro ⟨items, closed⟩
    exact .ite (fun _ => .rest (resting_setValueFailed false) fun _ => .pure _) fun _ => .pure _

theorem dwells_fieldValue (key : Token) : DwellsAt starts after (fieldValue inner key) := by
  refine .currentKind fun token _ => .ite (fun hkind => ?_) fun _ => .ite (fun _ => .pure _) fun _ => ?_
  · have hbrace : token.kind ≠ .rightBrace := by
      intro hbrace
      rw [hbrace] at hkind
      cases hkind
    exact (dwells_advance_of hbrace).bind fun _ => hinner .any
  · exact .rest (resting_report _) fun _ => (hinner .any).at

omit hinner in
theorem dwells_strayEntry : DwellsAt starts after strayEntry := by
  refine .currentKind fun token _ => .rest (resting_unexpected _) fun _ =>
    .rest (resting_setValueFailed true) fun _ => .ite (fun hkind => ?_) fun _ => ?_
  · have hbrace : token.kind ≠ .rightBrace := by
      rintro hbrace
      rw [hbrace] at hkind
      obtain hkind | hkind := hkind <;> cases hkind
    exact (dwells_advance_of hbrace).bind fun _ => dwells_recoverInList
  · exact dwells_skipValue.bind fun _ => dwells_recoverInList

theorem dwells_objectTurn (opening : Token) (entries : List ObjectEntry) :
    DwellsAt (fun token => token.kind ≠ .rightBrace) after (objectTurn inner opening entries) := by
  have hfield (key : Token) : Dwells after (do
      let value ← fieldValue inner key
      ifFailed recoverInList
      return ForInStep.yield (.field key.text value :: entries, false)) :=
    (dwells_fieldValue hinner key).bind fun _ =>
      (dwells_ifFailed dwells_recoverInList).bind fun _ => .pure _
  refine .current fun token hbrace => ?_
  have hadvance {f : Unit → Parser (ForInStep (List ObjectEntry × Bool))}
      (hf : ∀ value, Dwells after (f value)) : DwellsAt (· = token) after (advance >>= f) :=
    (dwells_advance_of hbrace).bind hf
  split
  next hkind => exact absurd hkind hbrace
  next =>
    exact .rest (resting_reportOpenObject _ _) fun _ =>
      .rest (resting_setValueFailed true) fun _ => .pure _
  next => exact hadvance fun _ => .pure _
  next => exact hadvance fun _ => .pure _
  next =>
    exact hadvance fun _ => .rest (resting_use _) fun _ => (hinner .any).bind fun _ =>
      (dwells_ifFailed dwells_recoverInList).bind fun _ => .pure _
  next => exact hadvance fun _ => hfield token
  next => exact hadvance fun _ => hfield token
  next => exact hadvance fun _ => hfield token
  next => exact hadvance fun _ => hfield token
  next => exact hadvance fun _ => hfield token
  next => exact dwells_strayEntry.bind fun _ => .pure _

theorem dwells_objectEntries :
    DwellsAt (fun token => token.kind = .leftBrace) after (objectEntries inner) := by
  intro context state hsheltered hbrace
  obtain ⟨hnext, hdepth⟩ := hsheltered.advance_opening hbrace
  have hloop : Leads (iterate ([], false) fun found => objectTurn inner state.token found.1)
      context state.advance fun _ next => Climbs after state next := by
    refine Leads.iterate
      (fun _ next => Sheltered after next ∧ state.braceDepth < next.braceDepth)
      ⟨hnext, hdepth ▸ Nat.lt_succ_self _⟩ ?_
    rintro ⟨entries, _⟩ next ⟨hnext, hinner'⟩
    by_cases hclosing : next.token.kind = .rightBrace
    · refine leads_current hnext.state_ended ?_
      rw [hclosing]
      obtain ⟨hamong, hclosed⟩ := hnext.advance_closing hclosing
      have hle : state.braceDepth ≤ next.advance.braceDepth := by omega
      exact leads_advance hnext.state_ended
        (leads_pure ⟨hamong, hle, Nat.lt_of_lt_of_le hsheltered.2 hle⟩)
    · refine (dwells_objectTurn hinner _ entries context next hnext hclosing).mono
        fun result last hlast => ?_
      have hlt := Nat.lt_of_lt_of_le hinner' hlast.depth_le
      cases result with
      | done value => exact ⟨hlast.among, Nat.le_of_lt hlt, hlast.depth_pos⟩
      | yield value => exact ⟨hlast.sheltered, hlt⟩
  refine leads_current hsheltered.state_ended (leads_advance hsheltered.state_ended
    (hloop.bind ?_))
  rintro ⟨entries, closed⟩ next hlast
  have hend : Dwells after (do
      if closed then setValueFailed false
      return entries.reverse) :=
    .ite (fun _ => .rest (resting_setValueFailed false) fun _ => .pure _) fun _ => .pure _
  exact (hend context next hlast.sheltered trivial).mono fun _ _ h => hlast.trans h

/-! ## Functions -/

omit hinner in
theorem dwells_paramName (rest : Bool) :
    DwellsAt (fun token => token.kind = .identifier) after (paramName rest) := by
  refine .current fun token hname => ?_
  exact (dwells_advance_of (by rw [hname]; simp)).bind fun _ =>
    (dwells_eat (by simp)).bind fun _ => .pure _

omit hinner in
theorem leads_paramTurn {params : List ArrowParam} (h : Sheltered after state)
    (harrow : opensArrow state.ahead = true) :
    Leads (paramTurn params) context state fun _ next => Climbs after state next := by
  have hname (rest : Bool) {next : State} (hnext : Sheltered after next)
      (hkind : next.token.kind = .identifier) :
      Leads (do return ForInStep.yield ((← paramName rest) :: params)) context next
        fun _ last => Climbs after next last :=
    ((dwells_paramName rest).bind fun _ => .pure _) context next hnext hkind
  refine leads_eat h.state_ended (fun hkind => ?_) fun hparen => ?_
  · exact leads_pure (h.advance (by rw [hkind]; simp))
  obtain ⟨closing, rest, hahead, hkind⟩ | hparams := opensArrow_cases harrow
  · have hvisible : state.visibleFrom 0 = closing :: rest := by
      rw [State.visibleFrom, hahead]
      exact visible_cons (by rw [hkind]; rfl)
    rw [State.token_of_visible hvisible] at hparen
    exact absurd hkind hparen
  obtain ⟨dots, name, second, rest, hahead, hdots, hkind, _⟩ := paramsAhead_cases hparams
  obtain rfl | ⟨dot, rfl, hdot⟩ := hdots
  · have hvisible : state.visibleFrom 0 = name :: second :: rest := by
      rw [State.visibleFrom, hahead]
      exact visible_cons (by rw [hkind]; rfl)
    have htoken := State.token_of_visible hvisible
    refine leads_eat h.state_ended (fun hspread => ?_) fun _ => hname false h (htoken ▸ hkind)
    rw [htoken, hkind] at hspread
    cases hspread
  · have hvisible : state.visibleFrom 0 = dot :: name :: second :: rest := by
      rw [State.visibleFrom, hahead]
      exact visible_cons (by rw [hdot]; rfl)
    have htoken := State.token_of_visible hvisible
    refine leads_eat h.state_ended (fun _ => ?_) fun hspread => absurd (htoken ▸ hdot) hspread
    have hclimbs := h.advance (by rw [htoken, hdot]; simp)
    have hnext : state.advance.visibleFrom 0 = name :: second :: rest := by
      rw [State.advance_of_visible hvisible (by rw [hdot]; simp), State.visibleFrom]
      exact visible_cons (by rw [hkind]; rfl)
    refine (resting_use .spread context _ hclimbs.sheltered.within).leads.bind fun _ next hsame => ?_
    have hword : next.token.kind = .identifier := by
      rw [hsame.token, State.token_of_visible hnext, hkind]
    refine (hname true (hclimbs.sheltered.same hsame) hword).mono fun _ last hlast => ?_
    exact hclimbs.trans ⟨hlast.among, hsame.braceDepth ▸ hlast.depth_le, hlast.depth_pos⟩

omit hinner in
theorem leads_arrowParams (h : Sheltered after state)
    (harrow : state.token.kind ≠ .identifier → state.token.kind = .leftParen ∧
      opensArrow (state.visibleFrom 0).tail = true) :
    Leads arrowParams context state fun _ next => Climbs after state next := by
  have hbrace : state.token.kind ≠ .rightBrace := by
    intro hbrace
    obtain ⟨hparen, _⟩ := harrow (by rw [hbrace]; simp)
    rw [hbrace] at hparen
    cases hparen
  have hclimbs := h.advance hbrace
  refine leads_current h.state_ended (leads_advance h.state_ended (.ite
    (fun _ => leads_pure hclimbs) fun hname => ?_))
  obtain ⟨hparen, hopens⟩ := harrow hname
  obtain ⟨rest, hvisible⟩ := exists_visibleFrom h.state_ended 0
  have hadvance : state.advance.ahead = (state.visibleFrom 0).tail := by
    rw [State.advance_of_visible hvisible (by rw [← State.token, hparen]; simp), hvisible]
    rfl
  have hloop : Leads (iterate [] paramTurn) context state.advance
      fun _ next => Climbs after state next := by
    refine Leads.iterate (fun _ next => Climbs after state next ∧ opensArrow next.ahead = true)
      ⟨hclimbs, by rwa [hadvance]⟩ ?_
    rintro params next ⟨hnext, hopens⟩ result last hrun
    have hlast := hnext.trans (leads_paramTurn hnext.sheltered hopens result last hrun)
    have hopens' := (returns_paramTurn hnext.sheltered.state_ended hopens).leads result last hrun
    cases result with
    | done params => exact hlast
    | yield params => exact ⟨hlast, hopens'.2⟩
  exact hloop.bind fun _ _ hlast => leads_pure hlast

theorem leads_arrow (h : Sheltered after state)
    (harrow : state.token.kind ≠ .identifier → state.token.kind = .leftParen ∧
      opensArrow (state.visibleFrom 0).tail = true) :
    Leads (arrow inner) context state fun _ next => Climbs after state next := by
  refine (resting_use .arrowFunctions context state h.within).leads.bind fun _ used hsame => ?_
  refine (leads_arrowParams (h.same hsame) ?_).bind fun params next hnext => ?_
  · rwa [hsame.token, hsame.visibleFrom]
  have hbody : Dwells after (do
      let _ ← eat .fatArrow
      if ← check .leftBrace then return Value.arrow params (.block (← blockText))
      else return .arrow params (.expr (← inner .any))) := by
    refine (dwells_eat (by simp)).bind fun _ => .check fun _ _ => .ite (fun _ => ?_) fun _ => ?_
    · exact dwells_blockText.bind fun _ => .pure _
    · exact DwellsAt.bind (hinner .any).at fun _ => .pure _
  refine (hbody context next hnext.sheltered trivial).mono fun _ last hlast => ?_
  exact ⟨hlast.among, hsame.braceDepth ▸ (hnext.trans hlast).depth_le, hlast.depth_pos⟩

/-! ## Primary values and operators -/

/-- A parenthesis opens the parameters of a function, or a value in parentheses. -/
theorem dwells_parenthesis :
    DwellsAt (fun token => token.kind = .leftParen) after (do
      if ← arrowAhead then arrow inner
      else
        advance
        let value ← inner .any
        expectClosing .paren
        return value) := by
  intro context state hsheltered hparen
  have hahead : Returns arrowAhead context state fun found next =>
      found = opensArrow (state.visibleFrom 0).tail ∧ next = state := by
    rw [arrowAhead, returns_bind, returns_get, returns_pure]
    exact ⟨rfl, rfl⟩
  refine hahead.leads.bind ?_
  rintro found next ⟨hfound, hnext⟩
  subst hnext
  refine .ite (fun hopens => ?_) fun _ => ?_
  · exact leads_arrow hinner hsheltered fun _ => ⟨hparen, hfound ▸ hopens⟩
  · have hvalue : DwellsAt (fun token => token.kind = .leftParen) after (do
        advance
        let value ← inner .any
        expectClosing .paren
        return value) :=
      (dwells_advance fun _ hkind => by rw [hkind]; simp).bind fun _ => (hinner .any).bind fun _ =>
        (dwells_expectClosing (by simp)).bind fun _ => .pure _
    exact hvalue context next hsheltered hparen

theorem dwells_primary : DwellsAt starts after (primary inner) := by
  refine .current fun token _ => ?_
  split
  next hkind => exact (dwells_advance_of (by rw [hkind]; simp)).bind fun _ => .pure _
  next hkind =>
    exact .rest (resting_reportUnterminated token) fun _ =>
      (dwells_advance_of (by rw [hkind]; simp)).bind fun _ => .pure _
  next hkind => exact (dwells_advance_of (by rw [hkind]; simp)).bind fun _ => .pure _
  next hkind => exact (dwells_advance_of (by rw [hkind]; simp)).bind fun _ => .pure _
  next hkind => exact (dwells_advance_of (by rw [hkind]; simp)).bind fun _ => .pure _
  next hkind =>
    exact (dwells_advance_of (by rw [hkind]; simp)).bind fun _ =>
      .of_resting (resting_interpolation token.text)
  next hkind =>
    refine .rest (resting_peekKind 1) fun next => .ite (fun _ => ?_) fun _ => ?_
    · intro context state hsheltered htoken
      exact leads_arrow hinner hsheltered fun hname => absurd (htoken ▸ hkind) hname
    · exact (dwells_advance_of (by rw [hkind]; simp)).bind fun _ => .pure _
  next hkind => exact (dwells_parenthesis hinner).of_token hkind
  next hkind =>
    exact (dwells_advance_of (by rw [hkind]; simp)).bind fun _ =>
      (dwells_sequence hinner (by simp)).bind fun _ => .pure _
  next hkind =>
    exact ((dwells_objectEntries hinner).of_token hkind).bind fun _ => .pure _
  next =>
    exact .rest (resting_unexpected _) fun _ => .rest (resting_setValueFailed true) fun _ =>
      dwells_skipValue.bind fun _ => .pure _

theorem dwells_postfixed : DwellsAt starts after (postfixed inner) := by
  refine (dwells_primary hinner).bind fun value => DwellsAt.iterate fun value => ?_
  refine .current fun token _ => .rest resting_previousLine fun line => ?_
  dsimp only
  split
  next hkind =>
    refine (dwells_advance_of (by rw [hkind]; simp)).bind fun _ => .current fun name _ =>
      .ite (fun hname => ?_) fun _ => ?_
    · exact (dwells_advance_of (by rw [hname]; simp)).bind fun _ => .pure _
    · exact .rest (resting_unexpected _) fun _ => .rest (resting_setValueFailed true) fun _ => .pure _
  next hkind =>
    refine .ite (fun _ => ?_) fun _ => .pure _
    exact (dwells_advance_of (by rw [hkind]; simp)).bind fun _ => (hinner .any).bind fun _ =>
      (dwells_expectClosing (by simp)).bind fun _ => .pure _
  next hkind =>
    refine .ite (fun _ => ?_) fun _ => .pure _
    exact (dwells_advance_of (by rw [hkind]; simp)).bind fun _ =>
      (dwells_sequence hinner (by simp)).bind fun _ => .pure _
  next => exact .pure _

theorem dwells_unary : DwellsAt starts after (unary inner) := by
  refine DwellsAt.bind (DwellsAt.iterate fun ops => .currentKind fun token _ => ?_) fun ops =>
    (dwells_postfixed hinner).bind fun _ => .pure _
  split
  next hkind => exact (dwells_advance_of (by rw [hkind]; simp)).bind fun _ => .pure _
  next hkind => exact (dwells_advance_of (by rw [hkind]; simp)).bind fun _ => .pure _
  next => exact .pure _

theorem dwells_equality : DwellsAt starts after (equality inner) :=
  dwells_chain rfl (dwells_chain rfl (dwells_chain rfl (dwells_chain rfl (dwells_unary hinner))))

theorem dwells_conditional : DwellsAt starts after (conditional inner) := by
  refine .rest resting_valueFailed fun before => (dwells_equality hinner).bind fun condition => ?_
  refine .rest resting_valueFailed fun failed => .ite (fun _ => .pure _) fun _ => ?_
  refine .eat (by simp) ?_ fun _ _ _ => .pure _
  refine (hinner .any).bind fun _ => .eat (by simp) ?_ fun _ _ _ => ?_
  · exact (hinner .conditional).bind fun _ => .pure _
  · exact .rest (resting_unexpected _) fun _ => .rest (resting_setValueFailed true) fun _ => .pure _

theorem dwells_coalesce : DwellsAt starts after (coalesce inner) :=
  dwells_chain rfl (dwells_chain rfl (dwells_chain rfl (dwells_conditional hinner)))

end

/-! ## Levels -/

theorem dwells_refuseValue : DwellsAt starts after refuseValue :=
  dwells_skipValue.bind fun _ => .rest (resting_setValueFailed true) fun _ => .pure _

theorem dwells_nested (levels : Nat) (strength : Strength) :
    Dwells after (nested levels strength) := by
  induction levels generalizing strength with
  | zero => exact fun _ _ _ _ => leads_throw
  | succ levels ih =>
      cases strength with
      | any => exact dwells_deeper dwells_refuseValue (dwells_coalesce ih)
      | conditional => exact dwells_deeper dwells_refuseValue (dwells_conditional ih)

theorem dwells_value : Dwells after value :=
  dwells_nested _ _

theorem dwells_object : DwellsAt (fun token => token.kind = .leftBrace) after object :=
  dwells_objectEntries (dwells_nested _)

theorem dwells_valueOr {recover : Parser Unit} (hrecover : Dwells after recover) :
    DwellsAt starts after (valueOr recover) :=
  .rest (resting_setValueFailed false) fun _ => DwellsAt.bind dwells_value.at fun _ =>
    (dwells_ifFailed hrecover).bind fun _ => .pure _

end Parser
end SceneLang
