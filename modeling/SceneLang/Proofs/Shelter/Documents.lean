import SceneLang.Proofs.Shelter.Directives
import SceneLang.Proofs.Shift.Documents

/-!
# An element in braces is left at its end

An element whose keyword stands in front of an opening brace is read without going beyond the
brace that closes it.  It may be left before; then the elements of a text go on within the
block, and they too come to its end.
-/

namespace SceneLang
namespace Parser

variable {α β : Type} {after : List Token} {context : Context} {state next : State}

/-! ## In front of a block -/

/-- The next token opens a block, outside of all braces, and the tokens of the block follow. -/
structure AtBlock (after : List Token) (state : State) : Prop where
  ahead : ∃ brace front, state.ahead = brace :: (front ++ after) ∧ brace.kind = .leftBrace ∧
    Closes [.brace] front
  depth : state.braceDepth = 0
  ended : Ended after
  nesting : state.nesting ≤ maxNesting

namespace AtBlock

theorem visible (h : AtBlock after state) :
    ∃ rest, state.visibleFrom 0 = state.token :: rest ∧ state.token.kind = .leftBrace := by
  obtain ⟨brace, front, hahead, hbrace, _⟩ := h.ahead
  have hvisible : state.visibleFrom 0 = brace :: (front ++ after) := by
    rw [State.visibleFrom, hahead, h.depth]
    exact visible_zero _
  have htoken := State.token_of_visible hvisible
  exact ⟨front ++ after, htoken ▸ hvisible, htoken ▸ hbrace⟩

theorem token (h : AtBlock after state) : state.token.kind = .leftBrace := by
  obtain ⟨_, _, hkind⟩ := h.visible
  exact hkind

theorem state_ended (h : AtBlock after state) : Ended state.ahead := by
  obtain ⟨brace, front, hahead, _, _⟩ := h.ahead
  rw [hahead, ← List.cons_append]
  exact (ended_append h.ended.ne_nil).mpr h.ended

theorem within (h : AtBlock after state) : Within state.ahead.length state.nesting state :=
  ⟨h.state_ended, Nat.le_refl _, rfl, h.nesting⟩

theorem same (h : AtBlock after state) (hsame : Same state next) : AtBlock after next :=
  ⟨hsame.ahead ▸ h.ahead, hsame.braceDepth ▸ h.depth, h.ended, hsame.nesting ▸ h.nesting⟩

/-- Behind the opening brace one brace is open. -/
theorem advance (h : AtBlock after state) : Inside after [.brace] state.advance := by
  obtain ⟨brace, front, hahead, hbrace, hcloses⟩ := h.ahead
  have hvisible : state.visibleFrom 0 = brace :: (front ++ after) := by
    rw [State.visibleFrom, hahead, h.depth]
    exact visible_zero _
  rw [State.advance_of_visible hvisible (by rw [hbrace]; simp)]
  exact ⟨⟨front, rfl, hcloses⟩, by rw [h.depth, hbrace]; rfl, h.ended, h.nesting⟩

end AtBlock

/-- From the opening brace of a block the parser comes to states of some kind. -/
def FromBlock (Comes : State → Prop) (after : List Token) (p : Parser α) : Prop :=
  ∀ context state, AtBlock after state → Leads p context state fun _ next => Comes next

/-- The parser leaves a block to be read by what comes behind it. -/
abbrev Waits (after : List Token) (p : Parser α) : Prop :=
  FromBlock (AtBlock after) after p

/-- The parser enters a block and does not go beyond its end. -/
abbrev Enters (after : List Token) (p : Parser α) : Prop :=
  FromBlock (Among after) after p

section

variable {Comes : State → Prop}

theorem FromBlock.pure (value : α) : Waits after (pure value : Parser α) :=
  fun _ _ hblock => leads_pure hblock

theorem Waits.bind {p : Parser α} {f : α → Parser β} (hp : Waits after p)
    (hf : ∀ value, FromBlock Comes after (f value)) : FromBlock Comes after (p >>= f) := by
  intro context state hblock
  exact (hp context state hblock).bind fun value next hnext => hf value context next hnext

theorem FromBlock.of_resting {p : Parser α} (hp : ∀ {bound depth}, Resting bound depth p) :
    Waits after p :=
  fun context state hblock =>
    (hp context state hblock.within).leads.mono fun _ _ hsame => hblock.same hsame

theorem FromBlock.current {f : Token → Parser α}
    (hf : ∀ token, token.kind = .leftBrace → FromBlock Comes after (f token)) :
    FromBlock Comes after (current >>= f) :=
  fun context state hblock =>
    leads_current hblock.state_ended (hf _ hblock.token context state hblock)

theorem FromBlock.check {kind : TokenKind} {f : Bool → Parser α}
    (hf : FromBlock Comes after (f (decide (TokenKind.leftBrace = kind)))) :
    FromBlock Comes after (check kind >>= f) := by
  rw [Parser.check, bind_assoc, currentKind, bind_assoc]
  refine .current fun token hkind => ?_
  simp only [pure_bind, hkind]
  exact hf

theorem FromBlock.ite {c : Prop} [Decidable c] {p q : Parser α}
    (hp : c → FromBlock Comes after p) (hq : ¬c → FromBlock Comes after q) :
    FromBlock Comes after (if c then p else q) :=
  fun context state hblock => .ite (fun h => hp h context state hblock) fun h =>
    hq h context state hblock

/-- What reads nothing behind a block does not go beyond its end. -/
theorem Enters.rest {p : Parser α} {f : α → Parser β} (hp : Enters after p)
    (hf : ∀ value {bound depth}, Resting bound depth (f value)) : Enters after (p >>= f) := by
  intro context state hblock
  refine (hp context state hblock).bind fun value next hamong => ?_
  obtain ⟨opened, hinside⟩ := hamong
  have hwithin : Within next.ahead.length next.nesting next :=
    ⟨hinside.state_ended, Nat.le_refl _, rfl, hinside.nesting⟩
  exact (hf value context next hwithin).leads.mono fun _ _ hsame => ⟨opened, hinside.same hsame⟩

theorem enters_braced {item : β → Parser β} (hitem : ∀ value, DwellsAt Opens after (item value))
    (start : β) : Enters after (braced start item) := by
  refine .current fun opening _ context state hblock => ?_
  refine leads_eat hblock.state_ended (fun _ => ?_) fun hother => absurd hblock.token hother
  have hinside := hblock.advance
  have hsheltered : Sheltered after state.advance :=
    ⟨⟨_, hinside⟩, by rw [hinside.depth]; decide⟩
  exact (leads_bracedItems hitem hsheltered hsheltered.2).mono fun _ _ h => h.1

end

/-! ## Elements in front of a block -/

theorem waits_elementName (node : Node) (headLine : Nat) :
    Waits after (elementName node headLine) := by
  refine .current fun token _ => .ite (fun _ => .pure node) fun _ => ?_
  refine Waits.bind (.current fun token hkind => ?_) fun node => .current fun mark hkind =>
    .ite (fun hid => ?_) fun _ => .pure node
  · rw [hkind]
    exact .pure node
  · rw [hkind] at hid
    cases hid.1

theorem waits_templateParams (node : Node) : Waits after (templateParams node) := by
  unfold templateParams
  split
  · exact .check (.pure node)
  · exact .pure node

theorem waits_elementTemplate (node : Node) (headLine : Nat) :
    Waits after (elementTemplate node headLine) := by
  refine .current fun mark hkind => .ite (fun hword => ?_) fun _ => .pure node
  simp [Token.isWord, hkind] at hword

theorem waits_elementHead (held : Held) (node : Node) (headLine : Nat) :
    Waits after (elementHead held node headLine) := by
  intro context state hblock
  refine Leads.iterate (fun _ next => AtBlock after next) hblock fun node next hnext => ?_
  have hturn : FromBlock (AtBlock after) after (headTurn held headLine node) := by
    refine .current fun token hkind => .ite (fun _ => .pure _) fun _ => ?_
    rw [hkind]
    exact .pure _
  refine (hturn context next hnext).mono fun result _ hlast => ?_
  cases result <;> exact hlast

section

variable {held : Held} (hheld : held.Dwells after)
include hheld

theorem enters_elementBody (node : Node) : Enters after (elementBody held node) := by
  refine Waits.bind (.of_resting resting_get) fun _ => .check (Waits.bind
    (.of_resting (resting_peekKind 1)) fun _ => .check ?_)
  exact enters_braced (dwells_bodyItem hheld) node

theorem enters_elementRest (node : Node) (headLine : Nat) :
    Enters after (elementRest held node headLine) :=
  (waits_elementName node headLine).bind fun _ => (waits_templateParams _).bind fun _ =>
    (waits_elementTemplate _ headLine).bind fun _ =>
      (waits_elementHead held _ headLine).bind fun _ => enters_elementBody hheld _

theorem enters_logicRest (node : Node) (headLine : Nat) :
    Enters after (logicRest held node headLine) := by
  refine (waits_elementName node headLine).bind fun node => .check ?_
  exact (enters_braced (dwells_logicTurn hheld) _).rest fun _ => .pure _

theorem enters_machineRest (node : Node) (keyword : Token) :
    Enters after (machineRest held node keyword) := by
  refine (waits_elementName node keyword.line).bind fun node => ?_
  have hbody : Enters after (machineBody held node) :=
    .check (enters_braced (dwells_machineItem hheld) _)
  refine hbody.rest ?_
  rintro ⟨node, machine⟩ bound depth
  exact .ite ((resting_report _).bind fun _ => .pure _) (.pure _)

end

/-! ## Elements of a text -/

theorem enters_refuseElement (node : Node) : Enters after (refuseElement node) := by
  have hskip : Enters after skipElement := by
    have htest : Waits after (skipUntil do
        let kind ← currentKind
        return kind = .leftBrace || kind.endsBlock ||
          ((← get).braceDepth = 0 && kind.isLayout)) := by
      intro context state hblock
      have hstops : Returns (skipUntil do
          let kind ← currentKind
          return kind = .leftBrace || kind.endsBlock ||
            ((← get).braceDepth = 0 && kind.isLayout)) context state fun _ next => next = state := by
        rw [skipUntil, returns_iterate, skipTurn, returns_bind, returns_bind,
          returns_currentKind hblock.state_ended, returns_bind, returns_get, returns_pure,
          hblock.token]
        exact returns_pure.mpr rfl
      exact hstops.leads.mono fun _ _ hnext => hnext ▸ hblock
    refine htest.bind fun _ => .check ?_
    intro context state hblock
    refine Leads.bind (?_ : Leads _ _ _ fun _ next => Among after next)
      fun _ _ hnext => leads_pure hnext
    refine leads_currentKind hblock.state_ended ?_
    rw [hblock.token]
    refine leads_advance hblock.state_ended ?_
    exact (leads_skipToClosing hblock.advance).mono fun _ _ hinside => ⟨[], hinside⟩
  exact hskip.rest fun _ => .pure _

theorem AtBlock.nested (h : AtBlock after state) {levels : Nat} (hlevels : levels ≤ maxNesting) :
    AtBlock after { state with nesting := levels } :=
  ⟨h.ahead, h.depth, h.ended, hlevels⟩

theorem enters_deeper {refused body : Parser α} (hrefused : Enters after refused)
    (hbody : Enters after body) : Enters after (deeper refused body) := by
  intro context state hblock
  refine leads_deeper hblock.within (fun next hsame => hrefused context next (hblock.same hsame))
    fun hlimit => ?_
  refine (hbody context _ (hblock.nested hlimit)).mono ?_
  rintro _ next ⟨opened, hinside⟩
  exact ⟨opened, hinside.ahead, hinside.depth, hinside.ended,
    Nat.le_trans (Nat.sub_le _ _) hinside.nesting⟩

/-- A word in front of the block of an element. -/
structure AtElement (after : List Token) (state : State) : Prop where
  ahead : ∃ keyword brace front, state.ahead = keyword :: brace :: (front ++ after) ∧
    keyword.kind = .identifier ∧ brace.kind = .leftBrace ∧ Closes [.brace] front
  depth : state.braceDepth = 0
  ended : Ended after
  nesting : state.nesting ≤ maxNesting

namespace AtElement

theorem visible (h : AtElement after state) :
    ∃ brace rest, state.visibleFrom 0 = state.token :: brace :: rest ∧
      state.token.kind = .identifier ∧ state.tokenAt 1 = brace ∧ brace.kind = .leftBrace := by
  obtain ⟨keyword, brace, front, hahead, hword, hbrace, _⟩ := h.ahead
  have hvisible : state.visibleFrom 0 = keyword :: brace :: (front ++ after) := by
    rw [State.visibleFrom, hahead, h.depth]
    exact visible_zero _
  have htoken := State.token_of_visible hvisible
  have hnext : state.visibleFrom 1 = brace :: (front ++ after) := by
    rw [State.visibleFrom, hvisible, h.depth]
    exact visible_zero _
  refine ⟨brace, front ++ after, htoken ▸ hvisible, htoken ▸ hword, ?_, hbrace⟩
  rw [State.tokenAt, hnext]
  rfl

theorem state_ended (h : AtElement after state) : Ended state.ahead := by
  obtain ⟨keyword, brace, front, hahead, _⟩ := h.ahead
  rw [hahead, ← List.cons_append, ← List.cons_append]
  exact (ended_append h.ended.ne_nil).mpr h.ended

theorem within (h : AtElement after state) : Within state.ahead.length state.nesting state :=
  ⟨h.state_ended, Nat.le_refl _, rfl, h.nesting⟩

theorem same (h : AtElement after state) (hsame : Same state next) : AtElement after next :=
  ⟨hsame.ahead ▸ h.ahead, hsame.braceDepth ▸ h.depth, h.ended, hsame.nesting ▸ h.nesting⟩

theorem advance (h : AtElement after state) : AtBlock after state.advance := by
  obtain ⟨keyword, brace, front, hahead, hword, hbrace, hcloses⟩ := h.ahead
  have hvisible : state.visibleFrom 0 = keyword :: brace :: (front ++ after) := by
    rw [State.visibleFrom, hahead, h.depth]
    exact visible_zero _
  rw [State.advance_of_visible hvisible (by rw [hword]; simp)]
  exact ⟨⟨brace, front, rfl, hbrace, hcloses⟩, by rw [h.depth, hword]; rfl, h.ended, h.nesting⟩

end AtElement

/-- From the word in front of a block the parser does not go beyond the end of the block. -/
def Begins (after : List Token) (p : Parser α) : Prop :=
  ∀ context state, AtElement after state → Leads p context state fun _ next => Among after next

theorem Begins.current {f : Token → Parser α} (hf : ∀ token, Begins after (f token)) :
    Begins after (current >>= f) :=
  fun context state helement =>
    leads_current helement.state_ended (hf _ context state helement)

theorem Begins.rest {p : Parser α} {f : α → Parser β}
    (hp : ∀ {bound depth}, Resting bound depth p) (hf : ∀ value, Begins after (f value)) :
    Begins after (p >>= f) := by
  intro context state helement
  refine (hp context state helement.within).leads.bind fun value next hsame => ?_
  exact hf value context next (helement.same hsame)

theorem Begins.advance {f : Unit → Parser α} (hf : Enters after (f ())) :
    Begins after (advance >>= f) :=
  fun context _ helement =>
    leads_advance helement.state_ended (hf context _ helement.advance)

theorem Begins.ite {c : Prop} [Decidable c] {p q : Parser α} (hp : c → Begins after p)
    (hq : ¬c → Begins after q) : Begins after (if c then p else q) :=
  fun context state helement => .ite (fun h => hp h context state helement) fun h =>
    hq h context state helement

section

variable {held : Held} (hheld : held.Dwells after)
include hheld

theorem begins_genericElement (kind : NodeKind) : Begins after (genericElement held kind) :=
  .current fun keyword => .advance
    ((enters_deeper (enters_refuseElement _) (enters_elementRest hheld _ keyword.line)).rest
      fun _ => resting_close _ _)

theorem begins_logicElement : Begins after (logicElement held) :=
  .current fun keyword => .advance (Waits.bind (.of_resting (resting_use _)) fun _ =>
    (enters_deeper (enters_refuseElement _) (enters_logicRest hheld _ keyword.line)).rest
      fun _ => resting_close _ _)

theorem begins_stateMachine : Begins after (stateMachine held) :=
  .current fun keyword => .advance (Waits.bind (.of_resting (resting_use _)) fun _ =>
    (enters_deeper (enters_refuseElement _) (enters_machineRest hheld _ keyword)).rest
      fun _ => resting_close _ _)

/-- An element of any keyword is left within its block or at its end. -/
theorem begins_elementWith : Begins after (elementWith held) := by
  intro context state helement
  obtain ⟨brace, rest, hvisible, hword, hnext, hbrace⟩ := helement.visible
  refine leads_current helement.state_ended ?_
  have hpeek : Returns (peekKind 1) context state fun value next =>
      value = .leftBrace ∧ next = state :=
    (returns_peekKind helement.state_ended).mpr ⟨hnext ▸ hbrace, rfl⟩
  refine hpeek.leads.bind ?_
  rintro _ _ ⟨rfl, rfl⟩
  have hrest (token : Token) : Begins after (do
      if token.text = "logic" then logicElement held
      else if token.text = "state_machine" then stateMachine held
      else if token.text = "template" then
        use .templates
        genericElement held (.template [])
      else if token.text = "environment" then
        use .environment
        genericElement held .environment
      else if Vocabulary.compositions.contains token.text then
        genericElement held (.composition token.text)
      else
        checkKeyword token
        genericElement held (.element token.text none)) :=
    .ite (fun _ => begins_logicElement hheld) fun _ =>
      .ite (fun _ => begins_stateMachine hheld) fun _ =>
      .ite (fun _ => .rest (resting_use _) fun _ => begins_genericElement hheld _) fun _ =>
      .ite (fun _ => .rest (resting_use _) fun _ => begins_genericElement hheld _) fun _ =>
      .ite (fun _ => begins_genericElement hheld _) fun _ =>
        .rest (resting_checkKeyword token) fun _ => begins_genericElement hheld _
  refine .ite (fun hexport => ?_) fun _ => .ite (fun hfunction => ?_) fun _ =>
    hrest _ context _ helement
  · simp at hexport
  · simp at hfunction

end

/-! ## The top level -/

theorem begins_level (levels : Nat) : Begins after (level levels).element := by
  cases levels with
  | zero => exact fun _ _ _ => leads_throw
  | succ levels => exact begins_elementWith (dwells_level levels)

theorem dwells_skipLayout {starts : Token → Prop} : DwellsAt starts after skipLayout :=
  dwells_skipUntil (halts_of_kind (fun kind => !kind.isLayout) rfl)

theorem leads_strayToken (h : Sheltered after state) :
    Leads strayToken context state fun _ next => Among after next := by
  refine (resting_unexpected "at top level" context state h.within).leads.bind
    fun _ next hsame => ?_
  have hnext := h.same hsame
  rw [check, bind_assoc]
  refine leads_currentKind hnext.state_ended ?_
  rw [pure_bind]
  refine .ite (fun hbrace => ?_) fun _ => ?_
  · have hadvance : Returns advance context next fun _ last => Among after last :=
      (returns_advance hnext.state_ended).mpr (hnext.advance_closing (of_decide_eq_true hbrace)).1
    exact hadvance.leads
  · have hdwells : Dwells after synchronize := dwells_synchronize
    exact (hdwells context next hnext trivial).mono fun _ _ hlast => hlast.among

/-- At an element in braces the elements of a text go on within its block. -/
theorem leads_topTurn_of_atElement {held : Held} (helement : Begins after held.element)
    {found : List Node × Node} (h : AtElement after state) :
    Leads (topTurn held found) context state fun result next =>
      Among after next ∧ ∃ found', result = .yield found' := by
  obtain ⟨roots, loose⟩ := found
  obtain ⟨_, _, hvisible, hword, _, _⟩ := h.visible
  have hplain : state.token.kind.isLayout = false := by
    rw [hword]
    rfl
  have hlayout : Returns skipLayout context state fun _ next => next = state :=
    (returns_skipLayout_of_plain hvisible hplain).mpr rfl
  refine hlayout.leads.bind ?_
  rintro _ state rfl
  have hleading : Returns (leadingDirectives held) context state fun leading next =>
      leading = [] ∧ next = state := by
    rw [leadingDirectives, returns_bind, returns_iterate, leadingTurn, returns_bind,
      returns_check h.state_ended, hword, if_neg (by decide), returns_pure]
    exact returns_pure.mpr ⟨rfl, rfl⟩
  refine hleading.leads.bind ?_
  rintro _ state ⟨rfl, rfl⟩
  refine leads_currentKind h.state_ended ?_
  rw [hword]
  exact (helement context state h).bind fun _ _ hamong => leads_pure ⟨hamong, _, rfl⟩

section

variable {held : Held} (hheld : held.Dwells after)
include hheld

theorem dwells_leadingDirectives {starts : Token → Prop} :
    DwellsAt starts after (leadingDirectives held) := by
  refine DwellsAt.bind (.iterate fun placed => ?_) fun _ => .pure _
  refine .check fun token _ => .ite (fun hkind => ?_) fun _ => .pure _
  exact ((hheld.directive true).of_token (of_decide_eq_true hkind)).bind fun _ =>
    dwells_skipLayout.bind fun _ => .pure _

/-- Within a block the elements of a text go on at least to the end of the block. -/
theorem leads_topTurn_of_sheltered {found : List Node × Node} (h : Sheltered after state) :
    Leads (topTurn held found) context state fun result next =>
      Among after next ∧ ∃ found', result = .yield found' := by
  obtain ⟨roots, loose⟩ := found
  have hlayout : Dwells after skipLayout := dwells_skipLayout
  have hleading : Dwells after (leadingDirectives held) := dwells_leadingDirectives hheld
  refine (hlayout context state h trivial).bind fun _ first hfirst => ?_
  refine (hleading context first hfirst.sheltered trivial).bind fun leading next hnext => ?_
  have hsheltered := hnext.sheltered
  obtain ⟨opened, hopened, hinside⟩ := hsheltered.exists_inside
  refine leads_currentKind hsheltered.state_ended ?_
  split
  next hkind => exact absurd hkind (hinside.token_ne_eof hopened)
  next hkind =>
    exact (hheld.element context next hsheltered hkind).bind fun _ _ hlast =>
      leads_pure ⟨hlast.among, _, rfl⟩
  next =>
    refine (resting_attachAll loose leading context next hsheltered.within).leads.bind
      fun loose last hsame => ?_
    have hlast := hsheltered.same hsame
    exact (leads_strayToken hlast).bind fun _ _ hamong => leads_pure ⟨hamong, _, rfl⟩

end

/-! ## The elements of a text -/

section

variable {levels : Nat} {found : List Node × Node} {post : List Node × Node → State → Prop}

/-- The elements of a text go on behind a turn as they do from there. -/
theorem leads_topLevel_of_topTurn (hwithin : Within levels state.nesting state)
    (hturn : Leads (topTurn (level levels) found) context state fun result next =>
      Among after next ∧ ∃ found', result = .yield found')
    (hrest : ∀ found next, Among after next → Reads state next →
      Leads (iterate found (topTurn (level levels))) context next post) :
    Leads (iterate found (topTurn (level levels))) context state post := by
  have hreads : Leads _ context _ _ :=
    (returns_topTurn (forward_level levels) found hwithin).leads
  refine leads_iterate fun result next hrun => ?_
  obtain ⟨hamong, found', rfl⟩ := hturn result next hrun
  exact fun _ => hrest found' next hamong (hreads _ next hrun)

theorem leads_topLevel_of_among (hamong : Among after state)
    (hwithin : Within levels state.nesting state)
    (hend : ∀ found next, Inside after [] next → Keeps state next →
      Leads (iterate found (topTurn (level levels))) context next post) :
    Leads (iterate found (topTurn (level levels))) context state post := by
  -- The induction is on the tokens ahead, which are fewer after each turn within the block.
  induction hlength : state.ahead.length using Nat.strongRecOn generalizing state found
  case ind n ih =>
  obtain ⟨opened, hinside⟩ := hamong
  by_cases hopened : opened = []
  · subst hopened
    exact hend found state hinside (.refl state)
  obtain ⟨front, _, hcloses⟩ := hinside.ahead
  have hsheltered : Sheltered after state :=
    ⟨⟨opened, hinside⟩, hinside.depth ▸ hcloses.braces_pos hopened⟩
  refine leads_topLevel_of_topTurn hwithin
    (leads_topTurn_of_sheltered (dwells_level levels) hsheltered) fun found next hamong hreads => ?_
  have hnext := hwithin.keeps hreads.toKeeps
  rw [← hreads.nesting] at hnext
  exact ih next.ahead.length (hlength ▸ hreads.shorter) hamong hnext
    (fun found last hlast hkeeps => hend found last hlast (hreads.keeps hkeeps).toKeeps) rfl

/-- From an element in braces on, the elements of a text are read up to the end of its block,
and go on from there. -/
theorem leads_topLevel (h : AtElement after state) (hlevels : state.ahead.length ≤ levels)
    (hend : ∀ found next, Inside after [] next → Keeps state next →
      Leads (iterate found (topTurn (level levels))) context next post) :
    Leads (iterate found (topTurn (level levels))) context state post := by
  have hwithin : Within levels state.nesting state := ⟨h.state_ended, hlevels, rfl, h.nesting⟩
  refine leads_topLevel_of_topTurn hwithin (leads_topTurn_of_atElement (begins_level levels) h)
    fun found next hamong hreads => ?_
  have hnext := hwithin.keeps hreads.toKeeps
  rw [← hreads.nesting] at hnext
  exact leads_topLevel_of_among hamong hnext fun found last hlast hkeeps =>
    hend found last hlast (hreads.keeps hkeeps).toKeeps

end

end Parser
end SceneLang
