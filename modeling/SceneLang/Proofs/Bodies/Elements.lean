import SceneLang.Proofs.Bodies.Items

/-!
# Elements are read

The line of an element is read up to where its body begins, and the body item by item, by one
loop where it is indented and by another one where it is in braces.
-/

namespace SceneLang

open SceneLang.Parser
open Grammar

namespace Outline

variable {context : Context} {state entered : State} {held : Held} {node : Node}
  {token : Token} {rest : List Token}

/-! ## Heads -/

/-- What stands behind the line of an element: an opening brace, or the end of the line. -/
def OpensBody (depth : Nat) (token : Token) : Prop :=
  token.kind = .leftBrace ∨ token.kind = .newline ∧ depth = 0

theorem OpensBody.ne {depth : Nat} (h : OpensBody depth token) {kind : TokenKind}
    (hbrace : kind ≠ .leftBrace) (hline : kind ≠ .newline) : token.kind ≠ kind := by
  rintro rfl
  rcases h with h | ⟨h, -⟩
  · exact hbrace h
  · exact hline h

theorem OpensBody.sees {depth : Nat} (h : OpensBody depth token)
    (hpasses : Passes (token :: rest) state entered) (hsame : state.braceDepth = depth) :
    Sees token rest entered := by
  refine ⟨hpasses.ahead ▸ hpasses.ended, ?_⟩
  rw [State.visibleFrom, hpasses.ahead, hpasses.braceDepth, hsame]
  rcases h with hkind | ⟨-, hdepth⟩
  · exact visible_cons (by rw [hkind]; rfl)
  · rw [hdepth]
    exact visible_zero _

section

variable {depth headLine : Nat} (hopens : OpensBody depth token) (hsees : Sees token rest state)
include hopens hsees

theorem returns_givenId {post : Node → State → Prop} (hpost : post node state) :
    Returns (givenId node headLine) context state post := by
  have hhash : token.kind ≠ .hash := hopens.ne (by decide) (by decide)
  rw [givenId, returns_bind, hsees.current, if_neg fun h => hhash h.1, returns_pure]
  exact hpost

theorem returns_elementName_of_none {post : Node → State → Prop} (hpost : post node state) :
    Returns (elementName node headLine) context state post := by
  have hname : Returns (givenName node) context state fun found next =>
      found = node ∧ next = state := by
    rw [givenName, returns_bind, hsees.current]
    rcases hopens with hkind | ⟨hkind, -⟩ <;> rw [hkind] <;> exact returns_pure.mpr ⟨rfl, rfl⟩
  rw [elementName, returns_bind, hsees.current, returns_ite]
  refine ⟨fun _ => returns_pure.mpr hpost, fun _ => hname.bind ?_⟩
  rintro _ _ ⟨rfl, rfl⟩
  exact returns_givenId hopens hsees hpost

/-- Behind its name the line of the element is over. -/
theorem returns_headRest {post : Node → State → Prop}
    (hbody : Returns (elementBody held node) context state post) :
    Returns (do
      let node ← templateParams node
      let node ← elementTemplate node headLine
      let node ← elementHead held node headLine
      elementBody held node) context state post := by
  have hparams : Returns (templateParams node) context state fun found next =>
      found = node ∧ next = state := by
    have hparen : token.kind ≠ .leftParen := hopens.ne (by decide) (by decide)
    unfold templateParams
    split
    · rw [returns_bind, hsees.check, decide_eq_false hparen, if_neg Bool.false_ne_true,
        returns_pure]
      exact ⟨rfl, rfl⟩
    · exact returns_pure.mpr ⟨rfl, rfl⟩
  have husing : token.isWord "using" = false := by
    rw [Token.isWord, decide_eq_false (hopens.ne (by decide) (by decide)), Bool.false_and]
  have hturn : Returns (headTurn held headLine node) context state fun result next =>
      result = .done node ∧ next = state := by
    rw [headTurn, returns_bind, hsees.current, returns_ite]
    refine ⟨fun _ => returns_pure.mpr ⟨rfl, rfl⟩, fun _ => ?_⟩
    rcases hopens with hkind | ⟨hkind, -⟩ <;> rw [hkind] <;> exact returns_pure.mpr ⟨rfl, rfl⟩
  apply hparams.bind
  rintro _ _ ⟨rfl, rfl⟩
  rw [returns_bind, elementTemplate, returns_bind, hsees.current, husing,
    if_neg fun h => Bool.false_ne_true h.1, returns_pure, returns_bind, elementHead,
    returns_iterate]
  apply hturn.mono
  rintro _ _ ⟨rfl, rfl⟩
  exact hbody

end

theorem returns_close {start : Position} {post : Node → State → Prop}
    (hpost : ∀ loc, post { node with loc := loc } state) :
    Returns (close node start) context state post := by
  have hend : Returns endPosition context state fun _ next => next = state := by
    rw [endPosition, returns_bind, returns_get]
    split
    · exact returns_pure.mpr rfl
    · rw [returns_bind, returns_read, returns_pure]
  rw [close, returns_bind, locationFrom, returns_bind]
  apply hend.mono
  rintro stop _ rfl
  rw [returns_pure, returns_pure]
  exact hpost _

/-- An element is read up to its body. -/
theorem HeadSpelt.returns {keyword : Keyword} {name : Option Quoted} {tokens : List Token}
    {kind : NodeKind} {post : Node → State → Prop} (h : HeadSpelt keyword name tokens)
    (hbefore : Before (tokens ++ token :: rest) state) (hopens : OpensBody state.braceDepth token)
    (hroom : state.nesting < maxNesting)
    (hbody : ∀ entered, Passes (token :: rest) { state with nesting := state.nesting + 1 } entered →
      Returns (elementBody held { Node.ofKind kind default with name := name.map Written.text })
        context entered fun found next =>
          ∀ loc, post { found with loc := loc } { next with nesting := next.nesting - 1 }) :
    Returns (genericElement held kind) context state post := by
  obtain ⟨word, hword, -, htokens⟩ := h
  obtain ⟨names, rfl⟩ : ∃ names, tokens = word :: names := by
    cases name with
    | none => exact ⟨[], htokens⟩
    | some name => exact ⟨_, htokens.choose_spec.1⟩
  have hnamed := hbefore.passes (.of_kind hword rfl) fun _ => by rw [hword]; rfl
  have hnesting := hnamed.nesting
  have hinside := hnamed.nested
  rw [genericElement, returns_bind, hbefore.sees.current, returns_bind, hbefore.sees.advance,
    returns_bind, returns_deeper_of_lt (by rw [hnesting]; exact hroom), elementRest, returns_bind]
  have hclosed {found : Node} {next : State}
      (hpost : ∀ loc, post { found with loc := loc } { next with nesting := next.nesting - 1 }) :
      Returns (close found word.position) context { next with nesting := next.nesting - 1 } post :=
    returns_close hpost
  cases name with
  | none =>
      cases htokens
      have hsees := hopens.sees hinside rfl
      apply returns_elementName_of_none hopens hsees
      apply returns_headRest hopens hsees
      exact (hbody _ hinside).mono fun _ _ => hclosed
  | some name =>
      obtain ⟨quoted, htokens, hkind, htext, hline⟩ := htokens
      cases htokens
      have hquoted := hinside.before (by rw [hkind]; rfl) hbefore.calm
      have hpassed := hinside.trans
        (hquoted.passes (.of_kind hkind rfl) fun _ => by rw [hkind]; rfl)
      have hsees := hopens.sees hpassed rfl
      rw [elementName, returns_bind, hquoted.sees.current, if_neg (not_not_intro hline),
        returns_bind, givenName, returns_bind, hquoted.sees.current, hkind]
      dsimp only
      rw [returns_bind, hquoted.sees.advance, returns_pure, htext]
      apply returns_givenId hopens hsees
      apply returns_headRest hopens hsees
      exact (hbody _ hpassed).mono fun _ _ => hclosed

/-! ## Keywords -/

theorem Keyword.ne_of_not_construct {keyword : Keyword} {word : String}
    (h : Vocabulary.isConstruct word = false) : keyword.word ≠ word := by
  rintro rfl
  rw [keyword.construct] at h
  contradiction

/-- The keyword of an element decides which node is made, and which feature is noted. -/
theorem returns_elementWith {gist : Gist} {keyword : Keyword} {word : Token}
    {post : Node → State → Prop} (hsees : Sees word rest state) (htext : word.text = keyword.word)
    (hfits : gist.Fits node state)
    (hpost : ∀ features, (keyword.note gist).Fits node { state with features := features } →
      Returns (genericElement held keyword.kind) context { state with features := features } post) :
    Returns (elementWith held) context state post := by
  have hexport : keyword.word ≠ "export" := Keyword.ne_of_not_construct (by decide)
  have hfunction : keyword.word ≠ "function" := Keyword.ne_of_not_construct (by decide)
  rw [elementWith, returns_bind, hsees.current, returns_bind, returns_peekKind hsees.ended, htext]
  dsimp only
  rw [decide_eq_false hexport, Bool.false_and, if_neg Bool.false_ne_true,
    decide_eq_false hfunction, Bool.false_and, if_neg Bool.false_ne_true,
    if_neg keyword.ne_logic, if_neg keyword.ne_machine]
  unfold Keyword.note Keyword.kind at hpost
  by_cases htemplate : keyword.word = "template"
  · rw [if_pos htemplate, if_pos htemplate] at hpost
    rw [if_pos htemplate, returns_bind]
    exact hfits.use (by decide) hpost
  rw [if_neg htemplate, if_neg htemplate] at hpost
  rw [if_neg htemplate]
  by_cases henvironment : keyword.word = "environment"
  · rw [if_pos henvironment, if_pos henvironment] at hpost
    rw [if_pos henvironment, returns_bind]
    exact hfits.use (by decide) hpost
  rw [if_neg henvironment, if_neg henvironment] at hpost
  rw [if_neg henvironment]
  have hplain := hpost state.features hfits
  by_cases hcomposition : Vocabulary.compositions.contains keyword.word = true
  · rw [if_pos hcomposition] at hplain
    rw [if_pos hcomposition]
    exact hplain
  · rw [if_neg hcomposition] at hplain
    rw [if_neg hcomposition, returns_bind, checkKeyword, htext, keyword.construct, Bool.true_or]
    exact returns_pure.mpr hplain

/-! ## Bodies -/

/-- Without lines that are indented there is no body. -/
theorem returns_elementBody_of_none {next : Token} {post : Node → State → Prop}
    (hsees : Sees token (next :: rest) state) (hdepth : state.braceDepth = 0)
    (hkind : token.kind = .newline) (hnext : next.kind ≠ .indent) (hpost : post node state) :
    Returns (elementBody held node) context state post := by
  have hbrace : token.kind ≠ .leftBrace := by simp [hkind]
  rw [elementBody, returns_bind, returns_get, returns_bind, hsees.check, returns_bind,
    returns_peekKind hsees.ended, tokenAt_one hsees.visible (.inl hdepth)]
  dsimp only
  rw [returns_bind, hsees.check, decide_eq_false hbrace, if_neg Bool.false_ne_true,
    decide_eq_false hnext, Bool.and_false, if_neg Bool.false_ne_true, returns_pure]
  exact hpost

/-- The loop over the items of a body. -/
def bodyLoop (style : Style) (held : Held) (opening : Token) (node : Node) : Parser Node :=
  match style with
  | .indented => do return (← iterate (node, 0) (indentedTurn held)).1
  | .braced => iterate node (bracedTurn opening (bodyItem held))

theorem returns_elementBody_indented {indent : Token} {post : Node → State → Prop}
    {gist : Gist} (hsees : Sees token (indent :: rest) state) (hdepth : state.braceDepth = 0)
    (hkind : token.kind = .newline) (hindent : indent.kind = .indent)
    (hcalm : state.valueFailed = false) (hfits : gist.Fits node state)
    (hloop : ∀ entered, Before rest entered → entered.braceDepth = 0 →
      entered.nesting = state.nesting → gist.Fits node entered →
      Returns (bodyLoop .indented held token node) context entered post) :
    Returns (elementBody held node) context state post := by
  have hbrace : token.kind ≠ .leftBrace := by simp [hkind]
  obtain ⟨hline, hended⟩ := advance_layout hsees (by rw [hkind]; rfl)
  have hinside : Sees indent rest { state with ahead := indent :: rest } := by
    refine ⟨hended, ?_⟩
    rw [State.visibleFrom, hdepth]
    exact visible_zero _
  obtain ⟨hlevel, hended⟩ := advance_layout hinside (by rw [hindent]; rfl)
  dsimp only at hlevel
  have hfits : gist.Fits node { state with ahead := rest } := hfits.of_eq rfl rfl
  rw [elementBody, returns_bind, returns_get, returns_bind, hsees.check, returns_bind,
    returns_peekKind hsees.ended, tokenAt_one hsees.visible (.inl hdepth)]
  dsimp only
  rw [returns_bind, hsees.check, decide_eq_false hbrace, if_neg Bool.false_ne_true, hdepth,
    decide_eq_true hkind, decide_eq_true hindent, if_pos (by decide), returns_bind, hsees.advance,
    hline, returns_bind, hinside.advance, hlevel, returns_bind]
  apply hfits.use_indentation
  intro features hused
  refine hloop _ ⟨hended, ?_, hcalm⟩ hdepth rfl hused
  rw [State.visibleFrom, hdepth]
  exact visible_zero _

theorem returns_elementBody_braced {gap : List Token} {first : Token} {post : Node → State → Prop}
    {gist : Gist} (hsees : Sees token (gap ++ first :: rest) state)
    (hkind : token.kind = .leftBrace) (hgap : ∀ token ∈ gap, token.kind.isLayout = true)
    (hfirst : first.kind.isLayout = false) (hcalm : state.valueFailed = false)
    (hfits : gist.Fits node state)
    (hloop : ∀ entered, Before (first :: rest) entered →
      entered.braceDepth = state.braceDepth + 1 → entered.nesting = state.nesting →
      gist.Fits node entered →
      Returns (bodyLoop .braced held token node) context entered post) :
    Returns (elementBody held node) context state post := by
  have hplain : Grammar.Plain token := .of_kind hkind rfl
  have hadvance := hsees.advance_eq hplain
  rw [hkind] at hadvance
  rw [elementBody, returns_bind, returns_get, returns_bind, hsees.check, returns_bind,
    returns_peekKind hsees.ended]
  dsimp only
  rw [returns_bind, hsees.check, decide_eq_true hkind, if_pos rfl, braced, returns_bind,
    hsees.current, returns_bind, hsees.eat_of_eq hkind, if_pos rfl]
  have hentered : Before (first :: rest) state.advance := by
    rw [hadvance]
    refine ⟨hsees.ended_rest hplain, ?_, hcalm⟩
    exact visible_layout (Nat.succ_pos _) hgap hfirst
  exact hloop _ hentered (by rw [hadvance]; rfl) (by rw [hadvance])
    (hfits.of_eq (by rw [hadvance]) (by rw [hadvance]))

namespace Style

/-- The token behind the last item of a body. -/
def closing : Style → TokenKind
  | .indented => .dedent
  | .braced => .rightBrace

/-- Bodies are indented outside of braces only. -/
def Within (style : Style) (depth : Nat) : Prop :=
  match style with
  | .indented => depth = 0
  | .braced => 0 < depth

end Style

section

variable {style : Style} {opening first : Token} {gist : Gist} {post : Node → State → Prop}

theorem isLayout_of_startsItem
    (h : startsItem token.kind = true ∨ token.kind = Style.braced.closing) :
    token.kind.isLayout = false := by
  simp only [startsItem, Bool.or_eq_true, decide_eq_true_eq] at h
  rcases h with (h | h) | h <;> rw [h] <;> rfl

theorem returns_bodyLoop_of_closing (hbefore : Before (token :: rest) state)
    (hkind : token.kind = style.closing)
    (hpost : ∀ next, Goes rest
        { state with braceDepth := depthAfter state.braceDepth style.closing } next →
      next.log = state.log → next.features = state.features → post node next) :
    Returns (bodyLoop style held opening node) context state post := by
  cases style with
  | indented =>
      obtain ⟨hadvance, hended⟩ := advance_layout hbefore.sees (by rw [hkind]; rfl)
      rw [bodyLoop, returns_bind, returns_iterate, indentedTurn, returns_bind,
        hbefore.sees.currentKind, hkind]
      dsimp only [Style.closing]
      rw [returns_bind, hbefore.sees.advance, hadvance, if_pos rfl, returns_pure]
      exact returns_pure.mpr (hpost _ ⟨hended, rfl, rfl, rfl, hbefore.calm⟩ rfl rfl)
  | braced =>
      have hplain : Grammar.Plain token := .of_kind hkind rfl
      have hended := hbefore.sees.ended_rest hplain
      rw [bodyLoop, returns_iterate, bracedTurn, returns_bind, hbefore.sees.currentKind, hkind]
      dsimp only [Style.closing]
      rw [returns_bind, hbefore.sees.advance, hbefore.sees.advance_eq hplain, returns_pure]
      exact hpost _ ⟨hended, rfl, by rw [hkind], rfl, hbefore.calm⟩ rfl rfl

section

variable {gap back : List Token} {holds : Node → State → Prop}
  (hgoal : (gap ++ first :: back).length < state.ahead.length)
  (hkind : token.kind = .identifier ∨ token.kind = .at) (hsees : Sees token rest state)
  (hitem : Returns (bodyItem held node) context state fun found next =>
    holds found next ∧ Goes (gap ++ first :: back) state next)
include hgoal hkind hsees hitem

theorem returns_indentedTurn_of_item :
    Returns (indentedTurn held (node, 0)) context state fun result next =>
      ∃ found, result = .yield (found, 0) ∧ holds found next ∧
        Goes (gap ++ first :: back) state next := by
  have hread : Returns (do return ForInStep.yield (← indentedItem held node, 0)) context state
      fun result next => ∃ found, result = .yield (found, 0) ∧ holds found next ∧
        Goes (gap ++ first :: back) state next := by
    rw [returns_bind, indentedItem, returns_bind, returns_get, returns_bind]
    apply hitem.mono
    rintro found next ⟨hfound, hgoes⟩
    have hlength : next.ahead.length ≠ state.ahead.length := by
      rw [hgoes.ahead]
      omega
    rw [returns_bind, returns_get, if_neg hlength, returns_pure, returns_pure]
    exact ⟨found, rfl, hfound, hgoes⟩
  rw [indentedTurn, returns_bind, hsees.currentKind]
  rcases hkind with hkind | hkind
  · rw [hkind]
    exact hread
  · rw [hkind]
    exact hread

theorem returns_bracedTurn_of_item (opening : Token) :
    Returns (bracedTurn opening (bodyItem held) node) context state fun result next =>
      ∃ found, result = .yield found ∧ holds found next ∧
        Goes (gap ++ first :: back) state next := by
  have hread : Returns (bracedItem (bodyItem held node)) context state
      fun result next => ∃ found, result = .yield found ∧ holds found next ∧
        Goes (gap ++ first :: back) state next := by
    rw [bracedItem, returns_bind, returns_get, returns_bind]
    apply hitem.mono
    rintro found next ⟨hfound, hgoes⟩
    have hlength : next.ahead.length ≠ state.ahead.length := by
      rw [hgoes.ahead]
      omega
    rw [returns_bind, returns_get, if_neg hlength, returns_pure]
    exact ⟨found, rfl, hfound, hgoes⟩
  rw [bracedTurn, returns_bind, hsees.currentKind]
  rcases hkind with hkind | hkind
  · rw [hkind]
    exact hread
  · rw [hkind]
    exact hread

end

/-- One turn of the loop reads an item, and another one the end of its line. -/
theorem returns_bodyLoop_of_item {item : Item} {front gap back : List Token}
    (hbefore : Before (token :: front ++ (gap ++ first :: back)) state)
    (hstarts : startsItem token.kind = true) (hbetween : Between style item gap)
    (hfirst : startsItem first.kind = true ∨ first.kind = style.closing)
    (hwithin : style.Within state.braceDepth)
    (hitem : Returns (bodyItem held node) context state fun found next =>
      gist.Fits found next ∧ Goes (gap ++ first :: back) state next)
    (hnext : ∀ found next, gist.Fits found next → Before (first :: back) next →
      next.braceDepth = state.braceDepth → next.nesting = state.nesting →
      Returns (bodyLoop style held opening found) context next post) :
    Returns (bodyLoop style held opening node) context state post := by
  have hgoal : (gap ++ first :: back).length < state.ahead.length := by
    have hlength := hbefore.length_le
    rw [List.length_append, List.length_cons] at hlength
    omega
  have hkind : token.kind = .identifier ∨ token.kind = .at := by
    simpa [startsItem] using hstarts
  cases style with
  | indented =>
      have hturn := returns_indentedTurn_of_item hgoal hkind hbefore.sees hitem
      rw [bodyLoop, returns_bind, returns_iterate]
      apply hturn.mono
      rintro _ next ⟨found, rfl, hfits, hgoes⟩
      refine ⟨by rw [hgoes.ahead]; exact hgoal, ?_⟩
      have hvisible (tokens : List Token) : visible next.braceDepth tokens = tokens := by
        rw [hgoes.braceDepth, show state.braceDepth = 0 from hwithin]
        exact visible_zero tokens
      unfold Between at hbetween
      dsimp only at hbetween
      split at hbetween
      next =>
        subst hbetween
        have hloop := hnext found next hfits
          ⟨hgoes.ended, by rw [State.visibleFrom, hvisible, hgoes.ahead]; rfl, hgoes.calm⟩
          hgoes.braceDepth hgoes.nesting
        rwa [bodyLoop, returns_bind] at hloop
      next =>
        obtain ⟨line, rfl, hline⟩ := hbetween
        have hsees : Sees line (first :: back) next :=
          ⟨hgoes.ended, by rw [State.visibleFrom, hvisible, hgoes.ahead]; rfl⟩
        obtain ⟨hadvance, hended⟩ := advance_layout hsees (by rw [hline]; rfl)
        have hloop := hnext found { next with ahead := first :: back } (hfits.of_eq rfl rfl)
          ⟨hended, hvisible _, hgoes.calm⟩ hgoes.braceDepth hgoes.nesting
        rw [bodyLoop, returns_bind] at hloop
        rw [returns_iterate, indentedTurn, returns_bind, hsees.currentKind, hline]
        dsimp only
        rw [returns_bind, hsees.advance, hadvance, returns_pure]
        refine ⟨?_, hloop⟩
        rw [hgoes.ahead]
        exact Nat.lt_succ_self _
  | braced =>
      have hturn := returns_bracedTurn_of_item hgoal hkind hbefore.sees hitem opening
      rw [bodyLoop, returns_iterate]
      apply hturn.mono
      rintro _ next ⟨found, rfl, hfits, hgoes⟩
      refine ⟨by rw [hgoes.ahead]; exact hgoal, ?_⟩
      exact hnext found next hfits
        (hgoes.before hwithin hbetween (isLayout_of_startsItem hfirst))
        hgoes.braceDepth hgoes.nesting

end

/-! ## Items, elements and bodies -/

/-- What stands behind an item: where bodies are indented, an item without lines of its own is
followed by the end of its line. -/
def Follows (style : Style) (item : Item) (depth : Nat) (rest : List Token) : Prop :=
  match style with
  | .braced => EndsItem depth rest
  | .indented =>
      item.hasLines = false → ∃ line next others, rest = line :: next :: others ∧
        line.kind = .newline ∧ next.kind ≠ .indent

theorem Follows.endsItem {style : Style} {item : Item} {depth : Nat}
    (h : Follows style item depth rest) (hlines : item.hasLines = false)
    (hdepth : style = .indented → depth = 0) : EndsItem depth rest := by
  cases style with
  | braced => exact h
  | indented =>
      obtain ⟨line, next, others, rfl, hline, -⟩ := h hlines
      rw [hdepth rfl]
      exact ⟨line, _, visible_zero _, .inl hline⟩

/-- Items are followed by the next one, or by what stands behind the last one. -/
theorem Item.SpeltAll.head {style : Style} {items : List Item} {inside : List Token}
    {closing : Token} (h : Item.SpeltAll style items inside) :
    ∃ first more, inside ++ closing :: rest = first :: more ∧
      (startsItem first.kind = true ∨ first.kind = closing.kind) := by
  match items with
  | [] =>
      obtain rfl : inside = [] := h
      exact ⟨closing, rest, rfl, .inr rfl⟩
  | item :: items =>
      obtain ⟨front, gap, back, rfl, hfront, -⟩ := h
      obtain ⟨token, others, rfl, hstarts⟩ := hfront.head
      exact ⟨token, _, rfl, .inl hstarts⟩

theorem Between.follows_indented {item : Item} {first : Token} {gap more : List Token}
    {depth : Nat} (h : Between .indented item gap) (hfirst : first.kind ≠ .indent) :
    Follows .indented item depth (gap ++ first :: more) := by
  intro hlines
  unfold Between at h
  dsimp only at h
  rw [hlines, if_neg Bool.false_ne_true] at h
  obtain ⟨line, rfl, hline⟩ := h
  exact ⟨line, first, more, rfl, hline, hfirst⟩

theorem Between.follows {style : Style} {item : Item} {first : Token} {gap more : List Token}
    {depth : Nat} (h : Between style item gap) (hwithin : style.Within depth)
    (hfirst : startsItem first.kind = true ∨ first.kind = style.closing) :
    Follows style item depth (gap ++ first :: more) := by
  cases style with
  | braced =>
      refine ⟨first, more, visible_layout hwithin h (isLayout_of_startsItem hfirst), ?_⟩
      rcases hfirst with hfirst | hfirst
      · exact .inr (.inr hfirst)
      · exact .inr (.inl hfirst)
  | indented =>
      apply h.follows_indented
      intro hindent
      rw [hindent] at hfirst
      rcases hfirst with hfirst | hfirst <;> contradiction

/-- Behind the line of an element its body begins, or it has none. -/
theorem Element.Spelt.opens {style : Style} {element : Element} {tokens : List Token}
    {depth : Nat} (h : element.Spelt style tokens) (hdepth : style = .indented → depth = 0)
    (hfollows : style = .indented → Follows style (.element element) depth rest) :
    ∃ head token more, tokens ++ rest = head ++ token :: more ∧
      HeadSpelt element.keyword element.name head ∧ OpensBody depth token := by
  obtain ⟨keyword, name, items⟩ := element
  obtain ⟨head, body, rfl, hhead, hbody⟩ := h
  cases style with
  | braced =>
      obtain ⟨opening, gap, inside, closing, rfl, hopening, -⟩ := hbody
      exact ⟨head, opening, _, by rw [List.append_assoc]; rfl, hhead, .inl hopening⟩
  | indented =>
      obtain ⟨rfl, rfl⟩ | ⟨-, line, indent, inside, dedent, rfl, hline, -⟩ := hbody
      · obtain ⟨line, next, others, rfl, hline, -⟩ := hfollows rfl rfl
        exact ⟨head, line, _, by rw [List.append_nil], hhead, .inr ⟨hline, hdepth rfl⟩⟩
      · exact ⟨head, line, _, by rw [List.append_assoc]; rfl, hhead, .inr ⟨hline, hdepth rfl⟩⟩

/-- The token behind a keyword does not make it the name of a property. -/
theorem Element.Spelt.second {style : Style} {element : Element} {tokens : List Token}
    {depth : Nat} (h : element.Spelt style tokens) (hdepth : style = .indented → depth = 0)
    (hfollows : Follows style (.element element) depth rest) :
    ∃ word second more, tokens ++ rest = word :: second :: more ∧ word.kind = .identifier ∧
      Vocabulary.isConstruct word.text = true ∧ ¬second.kind.separatesKey = true ∧
      (depth = 0 ∨ second.kind.isLayout = false) := by
  obtain ⟨head, token, more, hsplit, ⟨word, hword, htext, hhead⟩, hopens⟩ :=
    Element.Spelt.opens h hdepth fun _ => hfollows
  have hconstruct : Vocabulary.isConstruct word.text = true := htext ▸ element.keyword.construct
  cases hname : element.name with
  | none =>
      rw [hname] at hhead
      subst hhead
      refine ⟨word, token, more, hsplit, hword, hconstruct, ?_, ?_⟩
      · rcases hopens with hkind | ⟨hkind, -⟩ <;> rw [hkind] <;> decide
      · rcases hopens with hkind | ⟨-, hzero⟩
        · exact .inr (by rw [hkind]; rfl)
        · exact .inl hzero
  | some name =>
      rw [hname] at hhead
      obtain ⟨quoted, rfl, hkind, -⟩ := hhead
      exact ⟨word, quoted, _, hsplit, hword, hconstruct, by rw [hkind]; decide,
        .inr (by rw [hkind]; rfl)⟩

end Outline

open Outline

theorem Gist.Fits.addChild {gist child : Gist} {node found : Node} {state next : State}
    (h : gist.Fits node state) (hchild : child.Fits found next) (loc : Location) :
    (gist.addChild child).Fits
      { node with children := node.children ++ [{ found with loc := loc }] } next := by
  have hplaced : Resembles id { found with loc := loc } found := by
    cases found
    rfl
  have hfound := hplaced.trans hchild.node
  exact ⟨h.node.with_children (h.node.children.concat hfound), hchild.log, hchild.features⟩

namespace Outline

/-- An element is read with what its body is read as. -/
theorem HeadSpelt.returns_element {context : Context} {held : Held} {keyword : Keyword}
    {name : Option Quoted} {head more rest : List Token} {token : Token} {gist child : Gist}
    {node : Node} {state : State} (h : HeadSpelt keyword name head)
    (hbefore : Before (head ++ token :: more) state) (hopens : OpensBody state.braceDepth token)
    (hfits : gist.Fits node state) (hroom : state.nesting < maxNesting)
    (hbody : ∀ entered, Sees token more entered → entered.valueFailed = false →
      entered.braceDepth = state.braceDepth → entered.nesting = state.nesting + 1 →
      (headed keyword name gist).Fits
        { Node.ofKind keyword.kind default with name := name.map Written.text } entered →
      Returns (elementBody held
          { Node.ofKind keyword.kind default with name := name.map Written.text }) context entered
        fun found next => child.Fits found next ∧ Goes rest entered next) :
    Returns (elementWith held) context state fun found next =>
      (gist.addChild child).Fits { node with children := node.children ++ [found] } next ∧
        Goes rest state next := by
  have hsees : ∃ word others, Sees word others state ∧ word.text = keyword.word := by
    obtain ⟨word, others, rfl, -, htext⟩ := h.head
    exact ⟨word, _, hbefore.sees, htext⟩
  obtain ⟨word, others, hsees, htext⟩ := hsees
  apply returns_elementWith hsees htext hfits
  intro features hnoted
  have hnext : Before (head ++ token :: more) { state with features := features } :=
    ⟨hbefore.ended, hbefore.visible, hbefore.calm⟩
  apply h.returns hnext hopens hroom
  intro entered hpasses
  have hheaded : (headed keyword name gist).Fits
      { Node.ofKind keyword.kind default with name := name.map Written.text } entered :=
    (hnoted.of_eq hpasses.log hpasses.features).with_node (.refl _)
  apply (hbody entered (hopens.sees hpasses rfl) (hpasses.valueFailed.trans hbefore.calm)
    hpasses.braceDepth hpasses.nesting hheaded).mono
  rintro found next ⟨hfound, hgoes⟩ loc
  constructor
  · exact (hfits.addChild hfound loc).of_eq rfl rfl
  · refine ⟨hgoes.ended, hgoes.ahead, hgoes.braceDepth.trans hpasses.braceDepth, ?_, hgoes.calm⟩
    have hnesting := hgoes.nesting.trans hpasses.nesting
    dsimp only at hnesting ⊢
    omega

mutual

/-- An item is read as what the outline says. -/
theorem Item.Spelt.returns (context : Context) (levels : Nat) {style : Style} {item : Item}
    {tokens rest : List Token} {gist : Gist} {node : Node} {state : State}
    (h : item.Spelt style tokens) (hbefore : Before (tokens ++ rest) state)
    (hfits : gist.Fits node state) (hlevels : tokens.length ≤ levels)
    (hroom : state.nesting + item.depth ≤ maxNesting)
    (hdepth : style = .indented → state.braceDepth = 0)
    (hfollows : Follows style item state.braceDepth rest) :
    Returns (bodyItem (level levels) node) context state fun found next =>
      (item.read context.options gist).Fits found next ∧ Goes rest state next := by
  match item with
  | .property key literal =>
      have hproperty : Returns (property node) context state fun found next =>
          (gist.property key.text literal.value).Fits found next ∧ Goes rest state next :=
        returns_property h hbefore hfits hroom (hfollows.endsItem rfl hdepth)
          fun _ _ hfound hgoes => ⟨hfound, hgoes⟩
      obtain ⟨word, colon, value, rfl, hword, -, hcolon, -⟩ := h
      rw [bodyItem, returns_bind, hbefore.sees.currentKind, hword]
      dsimp only
      rw [returns_bind]
      apply returns_propertyAhead_of_colon hbefore hcolon
      rw [if_pos rfl]
      exact hproperty
  | .trait name known =>
      have hspelt := h
      obtain ⟨mark, word, rfl, hmark, -⟩ := h
      obtain ⟨levels, rfl⟩ := Nat.exists_eq_add_of_le' (Nat.le_of_succ_le hlevels)
      rw [bodyItem, returns_bind, hbefore.sees.currentKind, hmark]
      apply returns_attachDirective hspelt hbefore hfits (hfollows.endsItem rfl hdepth)
      exact fun _ _ hfound hgoes => ⟨hfound, hgoes⟩
  | .element element =>
      have helement := Element.Spelt.returns context levels h hbefore hfits hlevels hroom hdepth
        fun hstyle => hfollows
      obtain ⟨word, second, more, hsplit, hword, hconstruct, hsecond, hplain⟩ :=
        Element.Spelt.second h hdepth hfollows
      rw [hsplit] at hbefore
      rw [bodyItem, returns_bind, hbefore.sees.currentKind, hword]
      dsimp only
      rw [returns_bind, propertyAhead, returns_bind, hbefore.sees.current, returns_bind,
        returns_peek hbefore.ended, tokenAt_one hbefore.visible hplain, if_neg hsecond,
        if_pos hconstruct, returns_pure, if_neg Bool.false_ne_true, returns_bind]
      apply helement.mono
      rintro found next hfound
      exact returns_pure.mpr hfound

theorem Element.Spelt.returns (context : Context) (levels : Nat) {style : Style}
    {element : Element} {tokens rest : List Token} {gist : Gist} {node : Node} {state : State}
    (h : element.Spelt style tokens)
    (hbefore : Before (tokens ++ rest) state) (hfits : gist.Fits node state)
    (hlevels : tokens.length ≤ levels) (hroom : state.nesting + element.depth ≤ maxNesting)
    (hdepth : style = .indented → state.braceDepth = 0)
    (hfollows : style = .indented → Follows style (.element element) state.braceDepth rest) :
    Returns (level levels).element context state fun found next =>
      (element.read context.options gist).Fits { node with children := node.children ++ [found] }
        next ∧ Goes rest state next := by
  obtain ⟨keyword, name, items⟩ := element
  obtain ⟨head, body, rfl, hhead, hbody⟩ := h
  obtain ⟨word, others, rfl, -⟩ := hhead.head
  rw [List.length_append, List.length_cons] at hlevels
  obtain ⟨levels, rfl⟩ : ∃ fewer, levels = fewer + 1 := ⟨levels - 1, by omega⟩
  rw [Element.depth] at hroom
  change Returns (elementWith (level levels)) context state _
  cases style with
  | braced =>
      obtain ⟨opening, gap, inside, closing, rfl, hopening, hgap, hinside, hclosing⟩ := hbody
      have hsplit : word :: others ++ opening :: (gap ++ (inside ++ [closing])) ++ rest =
          word :: others ++ opening :: (gap ++ (inside ++ closing :: rest)) := by simp
      rw [hsplit] at hbefore
      simp only [List.length_cons, List.length_append] at hlevels
      refine hhead.returns_element hbefore (.inl hopening) hfits (by omega)
        fun entered hsees hcalm hbraces hnesting hheaded => ?_
      obtain ⟨first, more, hmore, hfirst⟩ := Item.SpeltAll.head hinside
      rw [hclosing] at hfirst
      rw [hmore] at hsees
      apply returns_elementBody_braced hsees hopening hgap (isLayout_of_startsItem hfirst) hcalm
        hheaded
      intro inner hinner hdeeper hsame hfits
      rw [← hmore] at hinner
      apply (Item.SpeltAll.returns context levels opening hinside hinner hclosing hfits (by omega)
        (by omega) (by rw [hdeeper]; exact Nat.succ_pos _)).mono
      rintro found next ⟨hfound, hgoes⟩
      refine ⟨hfound, hgoes.ended, hgoes.ahead, ?_, hgoes.nesting.trans hsame, hgoes.calm⟩
      rw [hgoes.braceDepth, hdeeper]
      rfl
  | indented =>
      have hzero := hdepth rfl
      obtain ⟨rfl, rfl⟩ |
        ⟨-, line, indent, inside, dedent, rfl, hline, hindent, hinside, hdedent⟩ := hbody
      · obtain ⟨line, next, others, rfl, hline, hnext⟩ := hfollows rfl rfl
        rw [List.append_nil] at hbefore
        refine hhead.returns_element hbefore (.inr ⟨hline, hzero⟩) hfits (by omega)
          fun entered hsees hcalm hbraces hnesting hheaded => ?_
        apply returns_elementBody_of_none hsees (hbraces.trans hzero) hline hnext
        have hahead : entered.ahead = line :: next :: others := by
          have hvisible := hsees.visible
          rwa [State.visibleFrom, hbraces, hzero, visible_zero] at hvisible
        exact ⟨hheaded, hsees.ended, hahead, rfl, rfl, hcalm⟩
      · have hsplit : word :: others ++ line :: indent :: (inside ++ [dedent]) ++ rest =
            word :: others ++ line :: indent :: (inside ++ dedent :: rest) := by simp
        rw [hsplit] at hbefore
        simp only [List.length_cons, List.length_append] at hlevels
        refine hhead.returns_element hbefore (.inr ⟨hline, hzero⟩) hfits (by omega)
          fun entered hsees hcalm hbraces hnesting hheaded => ?_
        apply returns_elementBody_indented hsees (hbraces.trans hzero) hline hindent hcalm hheaded
        intro inner hinner hdeeper hsame hfits
        apply (Item.SpeltAll.returns context levels line hinside hinner hdedent hfits (by omega)
          (by omega) hdeeper).mono
        rintro found next ⟨hfound, hgoes⟩
        refine ⟨hfound, hgoes.ended, hgoes.ahead, ?_, hgoes.nesting.trans hsame, hgoes.calm⟩
        rw [hgoes.braceDepth, hbraces, hzero]
        exact hdeeper

/-- The items of a body are read up to its end. -/
theorem Item.SpeltAll.returns (context : Context) (levels : Nat) (opening : Token) {style : Style}
    {items : List Item} {inside rest : List Token} {closing : Token} {gist : Gist} {node : Node}
    {state : State} (h : Item.SpeltAll style items inside)
    (hbefore : Before (inside ++ closing :: rest) state) (hclosing : closing.kind = style.closing)
    (hfits : gist.Fits node state) (hlevels : inside.length ≤ levels)
    (hroom : state.nesting + Item.depthAll items ≤ maxNesting)
    (hwithin : style.Within state.braceDepth) :
    Returns (bodyLoop style (level levels) opening node) context state fun found next =>
      (Item.readAll context.options gist items).Fits found next ∧
        Goes rest { state with braceDepth := depthAfter state.braceDepth style.closing } next := by
  match items with
  | [] =>
      obtain rfl : inside = [] := h
      apply returns_bodyLoop_of_closing hbefore hclosing
      intro next hgoes hlog hfeatures
      exact ⟨hfits.of_eq hlog hfeatures, hgoes⟩
  | item :: items =>
      obtain ⟨front, gap, back, rfl, hfront, hbetween, hback⟩ := h
      obtain ⟨token, others, rfl, hstarts⟩ := hfront.head
      obtain ⟨first, more, hmore, hfirst⟩ := Item.SpeltAll.head hback
      rw [hclosing] at hfirst
      rw [Item.depthAll] at hroom
      rw [List.append_assoc, List.append_assoc, hmore] at hbefore
      rw [List.length_append, List.length_append] at hlevels
      have hitem := Item.Spelt.returns context levels hfront hbefore hfits (by omega) (by omega)
        (by rintro rfl; exact hwithin) (hbetween.follows hwithin hfirst)
      apply returns_bodyLoop_of_item hbefore hstarts hbetween hfirst hwithin hitem
      intro found next hfound hnext hbraces hnesting
      rw [← hmore] at hnext
      have hrest := Item.SpeltAll.returns context levels opening hback hnext hclosing hfound
        (by omega) (by rw [hnesting]; omega) (by rw [hbraces]; exact hwithin)
      apply hrest.mono
      rintro found next ⟨hfound, hgoes⟩
      exact ⟨hfound, hgoes.ended, hgoes.ahead, by rw [hgoes.braceDepth, hbraces],
        hgoes.nesting.trans hnesting, hgoes.calm⟩

end

end Outline

end SceneLang
