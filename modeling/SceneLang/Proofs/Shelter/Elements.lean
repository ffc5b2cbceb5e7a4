import SceneLang.Proofs.Parser.Logic
import SceneLang.Proofs.Shelter.Values

/-!
# Elements stay within a block

What an element holds within a block is read without closing a brace that was open before.
There are no indented bodies within a block, since layout is not seen there.
-/

namespace SceneLang
namespace Parser

variable {α β : Type} {after : List Token} {context : Context} {state next : State}
  {starts : Token → Prop}

/-! ## A word and what stands behind it -/

/-- From a token, with a token of some kind behind it, the parser stays in the block. -/
def DwellsBefore (token : Token) (next : TokenKind) (after : List Token) (p : Parser α) : Prop :=
  ∀ context state, Sheltered after state → state.token = token → (state.tokenAt 1).kind = next →
    Leads p context state fun _ last => Climbs after state last

section

variable {token : Token} {kind : TokenKind}

theorem DwellsAt.before {p : Parser α} (h : DwellsAt (· = token) after p) :
    DwellsBefore token kind after p :=
  fun context state hsheltered htoken _ => h context state hsheltered htoken

theorem DwellsBefore.ite {c : Prop} [Decidable c] {p q : Parser α}
    (hp : c → DwellsBefore token kind after p) (hq : ¬c → DwellsBefore token kind after q) :
    DwellsBefore token kind after (if c then p else q) :=
  fun context state hsheltered htoken hnext =>
    .ite (fun h => hp h context state hsheltered htoken hnext) fun h =>
      hq h context state hsheltered htoken hnext

theorem DwellsAt.peekNext {f : TokenKind → Parser α}
    (hf : ∀ next, DwellsBefore token next after (f next)) :
    DwellsAt (· = token) after (peekKind 1 >>= f) := by
  intro context state hsheltered htoken
  have hpeek : Returns (peekKind 1) context state fun value next =>
      value = (state.tokenAt 1).kind ∧ next = state :=
    (returns_peekKind hsheltered.state_ended).mpr ⟨rfl, rfl⟩
  refine hpeek.leads.bind ?_
  rintro _ _ ⟨rfl, rfl⟩
  exact hf _ context _ hsheltered htoken rfl

/-- A token that opens and closes no group and is not the end. -/
structure Plain (token : Token) : Prop where
  opening : Delimiter.ofOpening? token.kind = none
  closing : Delimiter.ofClosing? token.kind = none
  ne_eof : token.kind ≠ .eof

theorem plain_of_word (h : token.kind = .identifier ∨ token.kind = .string) : Plain token := by
  obtain hkind | hkind := h <;> refine ⟨?_, ?_, ?_⟩ <;> simp [hkind, Delimiter.ofOpening?,
    Delimiter.ofClosing?]

theorem Plain.ne_rightBrace (h : Plain token) : token.kind ≠ .rightBrace := by
  intro hkind
  have hclosing := h.closing
  rw [hkind] at hclosing
  cases hclosing

/-- Behind a plain token the next one is the current one. -/
theorem token_advance (hended : Ended state.ahead) (hplain : Plain state.token) :
    state.advance.token = state.tokenAt 1 := by
  obtain ⟨rest, hvisible⟩ := exists_visibleFrom hended 0
  have hvisible : state.visibleFrom 0 = state.token :: rest := hvisible
  have hlast := hended.visibleFrom 0
  rw [hvisible] at hlast
  have hbehind : behind (state.token :: rest) = rest := by
    cases rest with
    | nil => simp [Ended, hplain.ne_eof] at hlast
    | cons next rest => rfl
  have hadvance : state.advance.visibleFrom 0 = state.visibleFrom 1 := by
    rw [State.advance_of_visible hvisible hplain.ne_eof, State.visibleFrom, State.visibleFrom,
      hvisible, hbehind, depthAfter_plain hplain.opening hplain.closing]
  rw [State.token, State.tokenAt, hadvance, State.tokenAt]

theorem DwellsBefore.rest {p : Parser α} {f : α → Parser β}
    (hp : ∀ {bound depth}, Resting bound depth p)
    (hf : ∀ value, DwellsBefore token kind after (f value)) :
    DwellsBefore token kind after (p >>= f) := by
  intro context state hsheltered htoken hnext
  refine (hp context state hsheltered.within).leads.bind fun value last hsame => ?_
  have hnext' : (last.tokenAt 1).kind = kind := by
    rw [State.tokenAt, hsame.visibleFrom]
    exact hnext
  refine (hf value context last (hsheltered.same hsame) (hsame.token.trans htoken) hnext').mono
    fun _ _ hlast => ?_
  exact ⟨hlast.among, hsame.braceDepth ▸ hlast.depth_le, hlast.depth_pos⟩

/-- Behind a plain token the parser goes on from the token that was seen there. -/
theorem DwellsBefore.advance {f : Unit → Parser α} (hplain : Plain token)
    (hf : DwellsAt (fun next => next.kind = kind) after (f ())) :
    DwellsBefore token kind after (advance >>= f) := by
  rintro context state hsheltered rfl hnext
  have hclimbs := hsheltered.advance hplain.ne_rightBrace
  have htoken := token_advance hsheltered.state_ended hplain
  refine leads_advance hsheltered.state_ended ?_
  exact (hf context _ hclimbs.sheltered (htoken ▸ hnext)).mono fun _ _ hlast => hclimbs.trans hlast

/-- A key and what separates it from its value are stepped over. -/
theorem dwells_key {f : Unit → Parser α} (hword : token.kind = .identifier ∨ token.kind = .string)
    (hkey : kind.separatesKey = true) (hf : ∀ value, Dwells after (f value)) :
    DwellsBefore token kind after (advance >>= fun _ => advance >>= f) := by
  refine .advance (plain_of_word hword) ((dwells_advance fun next hnext => ?_).bind hf)
  rintro hbrace
  rw [← hnext, hbrace] at hkey
  cases hkey

end

/-! ## Arguments of directives -/

theorem dwells_argument : Dwells after argument :=
  (dwells_valueOr dwells_recoverInList).bind fun _ =>
    .rest (resting_setValueFailed false) fun _ => .pure _

theorem dwells_argumentTurn (config : TraitConfig) : Dwells after (argumentTurn config) := by
  refine .current fun token _ => ?_
  split
  next hkind => exact (dwells_advance_of (by rw [hkind]; simp)).bind fun _ => .pure _
  next => exact .rest (resting_unexpected _) fun _ => .pure _
  next hkind => exact (dwells_advance_of (by rw [hkind]; simp)).bind fun _ => .pure _
  next =>
    refine .peekNext fun next => .ite (fun hnamed => ?_) fun _ => DwellsAt.before ?_
    · simp only [Bool.and_eq_true, Bool.or_eq_true, decide_eq_true_eq] at hnamed
      exact dwells_key hnamed.1 hnamed.2 fun _ => dwells_argument.bind fun _ => .pure _
    · refine DwellsAt.bind dwells_argument.at fun _ => .current fun _ _ => ?_
      exact .ite (fun _ => .pure _) fun _ => .pure _

theorem dwells_arguments (line : Nat) : DwellsAt starts after (arguments line) := by
  refine .current fun token _ => .ite (fun hkind => ?_) fun _ => .pure _
  exact (dwells_advance_of (by rw [hkind.1]; simp)).bind fun _ => .iterate dwells_argumentTurn

theorem dwells_textTurn (line : Nat) (config : TraitConfig) : Dwells after (textTurn line config) := by
  refine .current fun token _ => .ite (fun hkind => ?_) fun _ => .pure _
  exact (dwells_advance_of (by rw [hkind.1]; simp)).bind fun _ => .pure _

theorem dwells_directiveConfig (allowBody : Bool) :
    DwellsAt starts after (directiveConfig allowBody) := by
  refine .rest resting_previousLine fun line => (dwells_arguments line).bind fun config => ?_
  refine (DwellsAt.iterate (dwells_textTurn line)).bind fun config => .check fun token _ =>
    .ite (fun hopens => ?_) fun _ => .pure _
  simp only [Bool.and_eq_true, decide_eq_true_eq] at hopens
  exact (dwells_object.of_token hopens.2).bind fun _ => .pure _

/-! ## Properties and bodies -/

/-- What an element holds stays within a block. -/
structure Held.Dwells (after : List Token) (held : Held) : Prop where
  element : DwellsAt (fun token => token.kind = .identifier) after held.element
  directive (allowBody : Bool) :
    DwellsAt (fun token => token.kind = .at) after (held.directive allowBody)
  conditional : Parser.Dwells after held.conditional

/-- A token that closes no brace. -/
abbrev Opens (token : Token) : Prop := token.kind ≠ .rightBrace

theorem dwells_property (node : Node) : DwellsAt Opens after (property node) := by
  have hrest (key : Token) : Dwells after (do
      let place ← current
      let read ← valueOr synchronize
      checkProperty key read place
      return { node with properties := node.properties.insert key.text read }) :=
    .current fun place _ => (dwells_valueOr dwells_synchronize).bind fun read =>
      .rest (resting_checkProperty key read place) fun _ => .pure _
  refine .current fun key hkey => (dwells_advance_of hkey).bind fun _ => ?_
  refine .currentKind fun token _ => .ite (fun hkind => ?_) fun _ => ?_
  · have hbrace : token.kind ≠ .rightBrace := by
      intro hbrace
      rw [hbrace] at hkind
      cases hkind
    exact (dwells_advance_of hbrace).bind fun _ => hrest key
  · exact .rest (resting_report _) fun _ => (hrest key).at

section

variable {held : Held} (hheld : held.Dwells after)
include hheld

theorem dwells_attachDirective (allowBody : Bool) (node : Node) :
    DwellsAt (fun token => token.kind = .at) after (attachDirective held allowBody node) := by
  refine (hheld.directive allowBody).bind fun found => ?_
  cases found with
  | some placed => exact .of_resting (resting_attach node placed)
  | none => exact .pure node

theorem dwells_bodyItem (node : Node) : DwellsAt Opens after (bodyItem held node) := by
  refine .currentKind fun token hopens => ?_
  split
  next hkind => exact (dwells_attachDirective hheld true node).of_token hkind
  next hkind =>
    exact (dwells_advance_of hopens).bind fun _ => .rest (resting_use _) fun _ =>
      (dwells_valueOr dwells_synchronize).bind fun _ => .pure _
  next hkind =>
    refine .rest resting_propertyAhead fun ahead => .ite (fun _ => ?_) fun _ => ?_
    · exact (dwells_property node).of_token hopens
    · exact (hheld.element.of_token hkind).bind fun _ => .pure _
  next =>
    refine .rest (resting_peekKind 1) fun next => .ite (fun _ => ?_) fun _ => ?_
    · exact (dwells_property node).of_token hopens
    · exact .rest (resting_unexpected _) fun _ => dwells_synchronize.bind fun _ => .pure _

/-! ## Heads of elements -/

omit hheld in
theorem dwells_givenName (node : Node) : DwellsAt starts after (givenName node) := by
  refine .current fun token _ => ?_
  split
  next hkind => exact (dwells_advance_of (by rw [hkind]; simp)).bind fun _ => .pure _
  next hkind =>
    exact .rest (resting_reportUnterminated token) fun _ =>
      (dwells_advance_of (by rw [hkind]; simp)).bind fun _ => .pure _
  next hkind =>
    refine .rest (resting_peekKind 1) fun _ => .ite (fun _ => .pure _) fun _ => ?_
    exact (dwells_advance_of (by rw [hkind]; simp)).bind fun _ => .pure _
  next => exact .pure _

omit hheld in
theorem dwells_givenId (node : Node) (headLine : Nat) :
    DwellsAt starts after (givenId node headLine) := by
  refine .current fun mark _ => .ite (fun hkind => ?_) fun _ => .pure _
  refine (dwells_advance_of (by rw [hkind.1]; simp)).bind fun _ => .current fun id _ =>
    .ite (fun hid => ?_) fun _ => .rest (resting_unexpected _) fun _ => .pure _
  exact (dwells_advance_of (by rw [hid]; simp)).bind fun _ => .pure _

omit hheld in
theorem dwells_elementName (node : Node) (headLine : Nat) :
    DwellsAt starts after (elementName node headLine) :=
  .current fun _ _ => .ite (fun _ => .pure _) fun _ =>
    (dwells_givenName node).bind fun _ => dwells_givenId _ _

omit hheld in
theorem dwells_templateName (node : Node) : DwellsAt starts after (templateName node) := by
  refine .current fun token _ => ?_
  split
  next hkind =>
    exact (dwells_advance_of (by rw [hkind]; simp)).bind fun _ =>
      .of_resting (resting_setTemplate node token)
  next hkind =>
    exact (dwells_advance_of (by rw [hkind]; simp)).bind fun _ =>
      .of_resting (resting_setTemplate node token)
  next hkind =>
    exact .rest (resting_reportUnterminated token) fun _ =>
      (dwells_advance_of (by rw [hkind]; simp)).bind fun _ =>
        .of_resting (resting_setTemplate node token)
  next => exact .rest (resting_unexpected _) fun _ => .pure _

omit hheld in
theorem dwells_skipHead (headLine : Nat) : DwellsAt starts after (skipHead headLine) := by
  refine dwells_skipUntil fun context state hsheltered => ?_
  rw [returns_bind, returns_current hsheltered.state_ended, returns_pure]
  exact ⟨rfl, fun hbrace => by simp [hbrace, TokenKind.endsBlock]⟩

theorem dwells_headTurn (headLine : Nat) (node : Node) :
    Dwells after (headTurn held headLine node) := by
  refine .current fun token _ => .ite (fun _ => .pure _) fun _ => ?_
  split
  next => exact .pure _
  next => exact .pure _
  next => exact .pure _
  next => exact .pure _
  next => exact .pure _
  next => exact .pure _
  next => exact .pure _
  next => exact .pure _
  next hkind =>
    exact ((dwells_attachDirective hheld false node).of_token hkind).bind fun _ => .pure _
  next hkind =>
    refine .rest (resting_peekKind 1) fun _ => .ite (fun _ => ?_) fun _ => .pure _
    have hopens : Opens token := by rw [Opens, hkind]; simp
    exact ((dwells_property node).of_token hopens).bind fun _ => .pure _
  next =>
    exact .rest (resting_unexpected _) fun _ => (dwells_skipHead headLine).bind fun _ => .pure _

theorem dwells_elementHead (node : Node) (headLine : Nat) :
    DwellsAt starts after (elementHead held node headLine) :=
  .iterate (dwells_headTurn hheld headLine)

omit hheld in
theorem dwells_skipElement : DwellsAt starts after skipElement := by
  refine DwellsAt.bind (dwells_skipUntil fun context state hsheltered => ?_) fun _ =>
    .check fun token _ => .ite (fun hkind => ?_) fun _ => .pure _
  · rw [returns_bind, returns_currentKind hsheltered.state_ended, returns_bind, returns_get,
      returns_pure]
    exact ⟨rfl, fun hbrace => by simp [hbrace, TokenKind.endsBlock]⟩
  · have hopens : token.kind ≠ .rightBrace := by
      rw [of_decide_eq_true hkind]
      simp
    exact (dwells_skipBalanced.of_token hopens).bind fun _ => .pure _

/-! ## Elements -/

omit hheld in
theorem dwells_templateParams (node : Node) : DwellsAt starts after (templateParams node) := by
  unfold templateParams
  split
  next =>
    refine .check fun _ _ => .ite (fun _ => ?_) fun _ => .pure _
    exact dwells_paramList.bind fun _ => .pure _
  next => exact .pure _

omit hheld in
theorem opens_of_isWord {token : Token} {word : String} (h : token.isWord word = true) :
    Opens token := by
  rw [Token.isWord, Bool.and_eq_true, decide_eq_true_eq] at h
  rw [Opens, h.1]
  simp

omit hheld in
theorem dwells_elementTemplate (node : Node) (headLine : Nat) :
    DwellsAt starts after (elementTemplate node headLine) := by
  refine .current fun mark _ => .ite (fun hword => ?_) fun _ => .pure _
  exact (dwells_advance_of (opens_of_isWord hword.1)).bind fun _ => dwells_templateName node

/-- Layout is not seen within a block, so that a body there is one in braces. -/
theorem dwells_elementBody (node : Node) : DwellsAt starts after (elementBody held node) := by
  have hrest (found : State) (hdepth : 0 < found.braceDepth) : Dwells after (do
      let opensLines := found.braceDepth = 0 && (← check .newline) && (← peekKind 1) = .indent
      if ← check .leftBrace then braced node (bodyItem held)
      else if opensLines then
        advance
        advance
        use .indentation
        indentedBody held node
      else return node) := by
    refine .rest (resting_check _) fun _ => .rest (resting_peekKind 1) fun _ => .check fun _ _ =>
      .ite (fun _ => dwells_braced (dwells_bodyItem hheld) node) fun _ => .ite (fun hopens => ?_)
        fun _ => .pure node
    simp only [Bool.and_eq_true, decide_eq_true_eq] at hopens
    exact absurd hopens.1.1 (Nat.ne_of_gt hdepth)
  intro context state hsheltered _
  have hget : Returns get context state fun value next => value = state ∧ next = state :=
    returns_get.mpr ⟨rfl, rfl⟩
  refine hget.leads.bind ?_
  rintro _ _ ⟨rfl, rfl⟩
  exact hrest _ hsheltered.2 context _ hsheltered trivial

theorem dwells_elementRest (node : Node) (headLine : Nat) :
    DwellsAt starts after (elementRest held node headLine) :=
  (dwells_elementName node headLine).bind fun _ => (dwells_templateParams _).bind fun _ =>
    (dwells_elementTemplate _ headLine).bind fun _ =>
      (dwells_elementHead hheld _ headLine).bind fun _ => dwells_elementBody hheld _

omit hheld in
theorem dwells_refuseElement (node : Node) : DwellsAt starts after (refuseElement node) :=
  dwells_skipElement.bind fun _ => .pure _

theorem dwells_genericElement (kind : NodeKind) :
    DwellsAt Opens after (genericElement held kind) := by
  refine .current fun keyword hopens => (dwells_advance_of hopens).bind fun _ => ?_
  exact (dwells_deeper (dwells_refuseElement _) (dwells_elementRest hheld _ keyword.line)).bind
    fun _ => .of_resting (resting_close _ _)

theorem dwells_exported {token : Token} (hkind : token.kind = .identifier) :
    DwellsBefore token .identifier after (exported held) := by
  refine .rest resting_startPosition fun start => .advance (plain_of_word (.inl hkind)) ?_
  refine (dwells_deeper (dwells_refuseElement _) ?_).bind fun _ => .of_resting (resting_close _ _)
  exact hheld.element.bind fun _ => .pure _

omit hheld in
theorem dwells_function : DwellsAt Opens after function := by
  refine .rest resting_startPosition fun start => (dwells_advance fun _ h => h).bind fun _ => ?_
  refine .rest (resting_use _) fun _ => (dwells_expectName _).bind fun found => ?_
  cases found with
  | none => exact dwells_synchronize.bind fun _ => .of_resting (resting_close _ _)
  | some name =>
      exact dwells_paramList.bind fun _ => dwells_blockText.bind fun _ =>
        .of_resting (resting_close _ _)

end

end Parser
end SceneLang

namespace SceneLang
namespace Parser

/-! ## Logic and state machines stay within a block

The items of a block of logic and of a state machine, and the choice among the parsers of
elements, close no brace that was open before.
-/

variable {after : List Token} {starts : Token → Prop}

/-! ## Blocks of logic -/

theorem dwells_logicValue : DwellsAt starts after logicValue :=
  dwells_valueOr dwells_synchronize

theorem dwells_logicItem (block : LogicBlock) :
    DwellsAt (fun token => token.kind = .identifier) after (logicItem block) := by
  refine .current fun token hkind => .peekNext fun next => ?_
  have hopens : Opens token := by rw [Opens, hkind]; simp
  refine .ite (fun _ => DwellsAt.before ?_) fun _ => .ite (fun _ => DwellsAt.before ?_) fun _ =>
    .ite (fun hkey => ?_) fun _ => .ite (fun _ => DwellsAt.before ?_) fun _ => DwellsAt.before ?_
  · refine (dwells_advance_of hopens).bind fun _ => (dwells_expectName _).bind fun found => ?_
    cases found with
    | none => exact dwells_synchronize.bind fun _ => .pure _
    | some name => exact dwells_paramList.bind fun _ => dwells_blockText.bind fun _ => .pure _
  · refine (dwells_advance_of hopens).bind fun _ => (dwells_expectName _).bind fun found => ?_
    cases found with
    | none => exact dwells_synchronize.bind fun _ => .pure _
    | some name =>
        refine .currentKind fun separator _ => .ite (fun hseparates => ?_) fun _ => ?_
        · have hbrace : separator.kind ≠ .rightBrace := by
            intro hbrace
            rw [hbrace] at hseparates
            cases hseparates
          exact (dwells_advance_of hbrace).bind fun _ => dwells_logicValue.bind fun _ => .pure _
        · exact .rest (resting_unexpected _) fun _ => dwells_logicValue.bind fun _ => .pure _
  · exact dwells_key (.inl hkind) hkey fun _ => dwells_logicValue.bind fun _ => .pure _
  · refine (dwells_advance_of hopens).bind fun _ => dwells_paramList.bind fun _ =>
      dwells_blockText.bind fun _ => ?_
    exact .ite (fun _ => .pure _) fun _ => .pure _
  · exact .rest (resting_unexpected _) fun _ => dwells_synchronize.bind fun _ => .pure _

section

variable {held : Held} (hheld : held.Dwells after)
include hheld

theorem dwells_logicTurn (found : Node × LogicBlock) : DwellsAt Opens after (logicTurn held found) := by
  obtain ⟨node, block⟩ := found
  refine .currentKind fun token _ => ?_
  split
  next hkind => exact ((dwells_logicItem block).of_token hkind).bind fun _ => .pure _
  next hkind => exact ((dwells_attachDirective hheld true node).of_token hkind).bind fun _ => .pure _
  next => exact .rest (resting_unexpected _) fun _ => dwells_synchronize.bind fun _ => .pure _

theorem dwells_logicRest (node : Node) (headLine : Nat) :
    DwellsAt starts after (logicRest held node headLine) := by
  refine (dwells_elementName node headLine).bind fun node => .check fun _ _ =>
    .ite (fun _ => ?_) fun _ => ?_
  · exact (dwells_braced (dwells_logicTurn hheld) _).bind fun _ => .pure _
  · exact .rest (resting_unexpected _) fun _ => dwells_synchronize.bind fun _ => .pure _

theorem dwells_logicElement : DwellsAt Opens after (logicElement held) := by
  refine .current fun keyword hopens => (dwells_advance_of hopens).bind fun _ =>
    .rest (resting_use _) fun _ => ?_
  exact (dwells_deeper (dwells_refuseElement _) (dwells_logicRest hheld _ keyword.line)).bind
    fun _ => .of_resting (resting_close _ _)

end

/-! ## States and transitions -/

theorem dwells_stateItem (state : MachineState) : DwellsAt Opens after (stateItem state) := by
  refine .current fun token hopens => .peekNext fun next => ?_
  refine .ite (fun _ => DwellsAt.before ?_) fun _ => .ite (fun _ => DwellsAt.before ?_) fun _ =>
    .ite (fun hkey => ?_) fun _ => DwellsAt.before ?_
  · exact (dwells_advance_of hopens).bind fun _ => dwells_captureBlock.bind fun _ => .pure _
  · exact (dwells_advance_of hopens).bind fun _ => dwells_captureBlock.bind fun _ => .pure _
  · exact dwells_key hkey.1 hkey.2 fun _ => dwells_logicValue.bind fun _ => .pure _
  · exact .rest (resting_unexpected _) fun _ => dwells_synchronize.bind fun _ => .pure _

theorem dwells_machineState : DwellsAt starts after machineState := by
  refine (dwells_expectName _).bind fun found => ?_
  cases found with
  | none => exact .pure _
  | some name =>
      refine .check fun _ _ => .ite (fun _ => ?_) fun _ => .pure _
      exact (dwells_braced dwells_stateItem _).bind fun _ => .pure _

theorem dwells_transition : DwellsAt starts after transition := by
  refine (dwells_expectName _).bind fun found => ?_
  cases found with
  | none => exact .pure _
  | some source =>
      refine .eat (by simp) ((dwells_expectName _).bind fun found => ?_) fun _ _ _ => ?_
      · cases found with
        | none => exact dwells_synchronize.bind fun _ => .pure _
        | some target =>
            refine .eat (by simp) ?_ fun _ _ _ => .pure _
            exact (dwells_expectName _).bind fun _ => .pure _
      · exact .rest (resting_unexpected _) fun _ => dwells_synchronize.bind fun _ => .pure _

theorem dwells_addTransition (machine : StateMachine) :
    DwellsAt starts after (addTransition machine) := by
  refine dwells_transition.bind fun found => ?_
  cases found <;> exact .pure _

theorem dwells_initialName (machine : StateMachine) (keyword : Token) :
    DwellsAt starts after (initialName machine keyword) := by
  refine (dwells_expectName _).bind fun found => ?_
  cases found with
  | none => exact dwells_synchronize.bind fun _ => .pure _
  | some name =>
      exact .ite (fun _ => .rest (resting_report _) fun _ => .pure _) fun _ => .pure _

theorem dwells_initialState (machine : StateMachine) :
    DwellsAt Opens after (initialState machine) := by
  refine .current fun keyword hopens => (dwells_advance_of hopens).bind fun _ =>
    .currentKind fun separator _ => .ite (fun hseparates => ?_) fun _ => ?_
  · have hbrace : separator.kind ≠ .rightBrace := by
      intro hbrace
      rw [hbrace] at hseparates
      cases hseparates
    exact (dwells_advance_of hbrace).bind fun _ => dwells_initialName machine keyword
  · exact .rest (resting_report _) fun _ => dwells_initialName machine keyword

theorem dwells_transitionItem (machine : StateMachine) :
    DwellsAt Opens after (transitionItem machine) := by
  refine .currentKind fun token _ => .ite (fun _ => dwells_addTransition machine) fun _ => ?_
  exact .rest (resting_unexpected _) fun _ => dwells_synchronize.bind fun _ => .pure _

/-! ## Elements -/

section

variable {held : Held} (hheld : held.Dwells after)
include hheld

theorem dwells_machineItem (found : Node × StateMachine) :
    DwellsAt Opens after (machineItem held found) := by
  obtain ⟨node, machine⟩ := found
  refine .current fun token hopens => .rest (resting_peekKind 1) fun next => ?_
  refine .ite (fun hkind => ?_) fun _ => .ite (fun _ => ?_) fun _ => .ite (fun _ => ?_) fun _ =>
    .ite (fun _ => ?_) fun _ => .ite (fun _ => ?_) fun _ => .ite (fun _ => ?_) fun _ => ?_
  · exact ((dwells_attachDirective hheld true node).of_token hkind).bind fun _ => .pure _
  · exact ((dwells_initialState machine).of_token hopens).bind fun _ => .pure _
  · refine (dwells_advance_of hopens).bind fun _ => dwells_machineState.bind fun found => ?_
    cases found <;> exact .pure _
  · exact (dwells_advance_of hopens).bind fun _ =>
      (dwells_braced dwells_transitionItem machine).bind fun _ => .pure _
  · exact (dwells_addTransition machine).bind fun _ => .pure _
  · exact ((dwells_property node).of_token hopens).bind fun _ => .pure _
  · exact .rest (resting_unexpected _) fun _ => dwells_synchronize.bind fun _ => .pure _

theorem dwells_machineRest (node : Node) (keyword : Token) :
    DwellsAt starts after (machineRest held node keyword) := by
  refine (dwells_elementName node keyword.line).bind fun node => ?_
  have hbody : Dwells after (machineBody held node) := by
    refine .check fun _ _ => .ite (fun _ => dwells_braced (dwells_machineItem hheld) _) fun _ => ?_
    exact .rest (resting_unexpected _) fun _ => dwells_synchronize.bind fun _ => .pure _
  refine hbody.bind ?_
  rintro ⟨node, machine⟩
  exact .ite (fun _ => .rest (resting_report _) fun _ => .pure _) fun _ => .pure _

theorem dwells_stateMachine : DwellsAt Opens after (stateMachine held) := by
  refine .current fun keyword hopens => (dwells_advance_of hopens).bind fun _ =>
    .rest (resting_use _) fun _ => ?_
  exact (dwells_deeper (dwells_refuseElement _) (dwells_machineRest hheld _ keyword)).bind
    fun _ => .of_resting (resting_close _ _)

theorem dwells_elementWith :
    DwellsAt (fun token => token.kind = .identifier) after (elementWith held) := by
  refine .current fun token hkind => .peekNext fun next => ?_
  have hopens : Opens token := by rw [Opens, hkind]; simp
  have hgeneric (kind : NodeKind) : DwellsAt (· = token) after (genericElement held kind) :=
    (dwells_genericElement hheld kind).of_token hopens
  refine .ite (fun hexport => ?_) fun _ => .ite (fun _ => DwellsAt.before ?_) fun _ =>
    .ite (fun _ => DwellsAt.before ?_) fun _ => .ite (fun _ => DwellsAt.before ?_) fun _ =>
    .ite (fun _ => DwellsAt.before ?_) fun _ => .ite (fun _ => DwellsAt.before ?_) fun _ =>
    .ite (fun _ => DwellsAt.before ?_) fun _ => DwellsAt.before ?_
  · simp only [Bool.and_eq_true, decide_eq_true_eq] at hexport
    rw [hexport.2]
    exact dwells_exported hheld hkind
  · exact dwells_function.of_token hopens
  · exact (dwells_logicElement hheld).of_token hopens
  · exact (dwells_stateMachine hheld).of_token hopens
  · exact .rest (resting_use _) fun _ => hgeneric _
  · exact .rest (resting_use _) fun _ => hgeneric _
  · exact hgeneric _
  · exact .rest (resting_checkKeyword token) fun _ => hgeneric _

end

end Parser
end SceneLang
