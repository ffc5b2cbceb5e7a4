import SceneLang.Proofs.Place.Trail

/-!
# What is laid out behind what

What a parser has read is judged in the state behind it, where the tokens of the text are split into
those that have been read and those ahead.  The token that a parser starts at is kept in view up to
where it is read: what starts there lies behind all places that have been passed before.
-/

namespace SceneLang
namespace Parser

variable {α β : Type} {source : List Char} {starts : Token → Prop} {past : State} {token : Token}

/-- All places that have been passed lie in front of the token. -/
def Heads (source : List Char) (past : State) (token : Token) : Prop :=
  ∀ p, Passed source p past → p ≤ token.position

/-- The parse of the text has gone on from the state, and its result is as said. -/
structure Laid (source : List Char) (state : State) (made : α → State → Prop) (value : α)
    (next : State) : Prop where
  stands : Stands source next
  reaches : Reaches state next
  made : made value next

theorem Leads.after {p : Parser α} {context : Context} {state now : State}
    {made : α → State → Prop} (h : Leads p context now (Laid source now made))
    (hreaches : Reaches state now) : Leads p context now (Laid source state made) :=
  h.mono fun _ _ hlaid => ⟨hlaid.stands, hreaches.trans hlaid.reaches, hlaid.made⟩

/-- Where `past` has led, and from a token that it starts with, the parser comes to results that
are as said in the states behind them. -/
def LaysAt (source : List Char) (starts : Token → Prop) (past : State) (p : Parser α)
    (made : α → State → Prop) : Prop :=
  ∀ options state, Stands source state → Reaches past state → starts state.token →
    Leads p ⟨source, options⟩ state (Laid source state made)

abbrev Lays (source : List Char) (past : State) (p : Parser α) (made : α → State → Prop) : Prop :=
  LaysAt source (fun _ => True) past p made

section

variable {p : Parser α} {f : α → Parser β} {made weaker : α → State → Prop}
  {made' : β → State → Prop}

theorem Lays.at (h : Lays source past p made) : LaysAt source starts past p made :=
  fun options state hstands hpast _ => h options state hstands hpast trivial

theorem LaysAt.later {now : State} (h : LaysAt source starts past p made)
    (hreaches : Reaches past now) : LaysAt source starts now p made :=
  fun options state hstands hnow => h options state hstands (hreaches.trans hnow)

theorem LaysAt.mono (h : LaysAt source starts past p made)
    (himp : ∀ value now, Reaches past now → made value now → weaker value now) :
    LaysAt source starts past p weaker := by
  intro options state hstands hpast hstarts
  refine (h options state hstands hpast hstarts).mono fun value next hlaid => ?_
  exact ⟨hlaid.stands, hlaid.reaches, himp value next (hpast.trans hlaid.reaches) hlaid.made⟩

/-- The token that is at hand, which is one of those ahead. -/
theorem LaysAt.each (h : ∀ token, starts token → Heads source past token →
    LaysAt source (· = token) past p made) : LaysAt source starts past p made := by
  intro options state hstands hpast hstarts
  have hheads : Heads source past state.token :=
    fun p hpassed => (hpassed.reaches hpast).le_ahead state.token hstands.token_mem
  exact h state.token hstarts hheads options state hstands hpast rfl

theorem LaysAt.pure {value : α} (h : ∀ now, Reaches past now → made value now) :
    LaysAt source starts past (pure value) made :=
  fun _ state hstands hpast _ => leads_pure ⟨hstands, .refl, h state hpast⟩

theorem Lasting.lays {value : α} (hlasting : Lasting made) (h : made value past) :
    LaysAt source starts past (pure value) made :=
  .pure fun now hnow => hlasting value past now hnow h

theorem laysAt_throw {fault : Fault} : LaysAt source starts past (throw fault) made :=
  fun _ _ _ _ _ => leads_throw

theorem LaysAt.ite {c : Prop} [Decidable c] {q : Parser α}
    (hp : c → LaysAt source starts past p made) (hq : ¬c → LaysAt source starts past q made) :
    LaysAt source starts past (if c then p else q) made :=
  fun options state hstands hpast hstarts =>
    .ite (fun h => hp h options state hstands hpast hstarts) fun h =>
      hq h options state hstands hpast hstarts

theorem LaysAt.bind (hp : LaysAt source starts past p made)
    (hf : ∀ value now, Reaches past now → made value now → Lays source now (f value) made') :
    LaysAt source starts past (p >>= f) made' := by
  intro options state hstands hpast hstarts
  refine (hp options state hstands hpast hstarts).bind ?_
  rintro value next ⟨hnext, hreaches, hmade⟩
  have hrest := hf value next (hpast.trans hreaches) hmade options next hnext .refl trivial
  exact hrest.after hreaches

/-- What reads nothing leaves the current token to what comes behind it. -/
theorem LaysAt.rest (hp : ∀ {bound depth}, Resting bound depth p)
    (hf : ∀ value, LaysAt source starts past (f value) made') :
    LaysAt source starts past (p >>= f) made' := by
  intro options state hstands hpast hstarts
  refine (hp _ state hstands.within).leads.bind fun value next hsame => ?_
  have hrest := hf value options next (hstands.keeps hsame.keeps) (hpast.trans hsame.reaches)
    (hsame.token ▸ hstarts)
  exact hrest.after hsame.reaches

/-- What is known of a result that parsers make at any nesting. -/
theorem laysAt_of_makes {good : α → Prop}
    (h : ∀ {bound depth}, Makes bound depth past p fun value _ => good value) :
    LaysAt source starts past p fun value _ => good value := by
  intro options state hstands hpast _
  refine (h _ state hstands.within hpast).mono ?_
  rintro value next ⟨hnext, hreaches, hgood⟩
  exact ⟨⟨hstands.read.reaches hreaches, hnext.ended, hnext.nesting ▸ hnext.depth_le⟩,
    hreaches, hgood⟩

theorem LaysAt.before (hp : ∀ {bound depth}, Steady bound depth p)
    (hf : ∀ value, Lays source past (f value) made') :
    LaysAt source starts past (p >>= f) made' := by
  have hmakes : LaysAt source starts past p fun _ _ => True := laysAt_of_makes hp.makes
  exact hmakes.bind fun value _ hreaches _ => (hf value).later hreaches

theorem LaysAt.current {f : Token → Parser β}
    (hf : ∀ token, starts token → LaysAt source (· = token) past (f token) made') :
    LaysAt source starts past (current >>= f) made' :=
  fun options state hstands hpast hstarts =>
    leads_current hstands.ended (hf _ hstarts options state hstands hpast rfl)

theorem LaysAt.currentKind {f : TokenKind → Parser β}
    (hf : ∀ token, starts token → LaysAt source (· = token) past (f token.kind) made') :
    LaysAt source starts past (currentKind >>= f) made' := by
  rw [Parser.currentKind, bind_assoc]
  exact .current hf

theorem LaysAt.startPosition {f : Position → Parser β}
    (hf : ∀ token, starts token → LaysAt source (· = token) past (f token.position) made') :
    LaysAt source starts past (startPosition >>= f) made' := by
  rw [Parser.startPosition, bind_assoc]
  exact .current hf

theorem LaysAt.check {kind : TokenKind} {f : Bool → Parser β}
    (hf : ∀ token, starts token →
      LaysAt source (· = token) past (f (decide (token.kind = kind))) made') :
    LaysAt source starts past (check kind >>= f) made' := by
  rw [Parser.check, bind_assoc]
  exact .currentKind hf

/-- Behind a token that is stepped over it has been read. -/
theorem LaysAt.advance {f : Unit → Parser β} (hplain : token.kind.isLayout = false)
    (heof : token.kind ≠ .eof)
    (hf : ∀ now, Reaches past now → HasRead source token now → Lays source now (f ()) made') :
    LaysAt source (· = token) past (advance >>= f) made' := by
  rintro options state hstands hpast rfl
  have hread := hstands.hasRead_advance hplain heof
  have hkeeps := advance_keeps hstands.ended
  have hrest := hf state.advance (hpast.trans hkeeps.reaches) hread options state.advance
    (hstands.keeps hkeeps) .refl trivial
  exact leads_advance hstands.ended (hrest.after hkeeps.reaches)

end

/-! ## Loops -/

theorem LaysAt.iterate {step : β → Parser (ForInStep β)} {start : β}
    {invariant made : β → State → Prop} (hlasting : Lasting invariant)
    (hstart : invariant start past)
    (hturn : ∀ value now, Reaches past now → invariant value now →
      Lays source now (step value) (Turned made invariant)) :
    LaysAt source starts past (iterate start step) made := by
  intro options state hstands hpast _
  refine Leads.iterate (Laid source state invariant) ?_ ?_
  · exact ⟨hstands, .refl, hlasting start past state hpast hstart⟩
  · rintro value next ⟨hnext, hreaches, hvalue⟩
    have hstep := hturn value next (hpast.trans hreaches) hvalue options next hnext .refl trivial
    refine (hstep.after hreaches).mono ?_
    rintro result last ⟨hlast, hreaches', hresult⟩
    cases result with
    | done value => exact ⟨hlast, hreaches', hresult⟩
    | yield value => exact ⟨hlast, hreaches', hresult⟩

section

variable {item : β → Parser β} {start : β} {made : β → State → Prop}

theorem laysAt_bracedItem {p : Parser β} (hlasting : Lasting made)
    (hp : LaysAt source starts past p made) :
    LaysAt source starts past (bracedItem p) (Turned made made) := by
  apply LaysAt.rest resting_get
  intro before
  apply hp.bind
  intro value now _ hvalue
  have hyield : Lays source now (pure (.yield value)) (Turned made made) :=
    (lasting_turned hlasting hlasting).lays hvalue
  apply LaysAt.rest resting_get
  intro after
  apply LaysAt.ite
  · intro _
    apply LaysAt.rest resting_currentKind
    intro kind
    exact .ite (fun _ => hyield) fun _ => .before steady_advance fun _ => hyield
  · exact fun _ => hyield

/-- What each item of a block makes out of the items before it, the block does. -/
theorem LaysAt.braced (hlasting : Lasting made) (hstart : made start past)
    (hitem : ∀ value now, Reaches past now → made value now →
      Lays source now (item value) made) :
    LaysAt source starts past (braced start item) made := by
  apply LaysAt.rest resting_current
  intro opening
  apply LaysAt.before (steady_eat .leftBrace)
  intro opened
  apply LaysAt.ite
  · intro _
    apply LaysAt.iterate hlasting hstart
    intro value now hnow hvalue
    have hturned : Lasting (Turned made made) := lasting_turned hlasting hlasting
    apply LaysAt.rest resting_currentKind
    intro kind
    split
    · exact .before steady_advance fun _ => hturned.lays hvalue
    · exact .rest (resting_reportUnclosed opening) fun _ => hturned.lays hvalue
    · exact .before steady_advance fun _ => hturned.lays hvalue
    · exact .before steady_advance fun _ => hturned.lays hvalue
    · exact laysAt_bracedItem hlasting (hitem value now hnow hvalue)
  · intro _
    apply LaysAt.rest (resting_unexpected _)
    intro _
    exact hlasting.lays hstart

end

/-! ## Nesting -/

/-- One level deeper the tokens are the same, and so is what has been passed. -/
theorem LaysAt.deeper {refused body : Parser α} {made : α → State → Prop}
    (hlasting : Lasting made) (hrefused : LaysAt source starts past refused made)
    (hbody : LaysAt source starts past body made) :
    LaysAt source starts past (deeper refused body) made := by
  intro options state hstands hpast hstarts
  refine (returns_enter hstands.ended).leads.bind ?_
  rintro _ next (⟨rfl, -, hsame, -⟩ | ⟨rfl, hlimit, rfl⟩)
  · rw [if_neg Bool.false_ne_true]
    have hrest := hrefused options next (hstands.keeps hsame.keeps) (hpast.trans hsame.reaches)
      (hsame.token ▸ hstarts)
    exact hrest.after hsame.reaches
  · -- The nesting differs, but the current token depends on the tokens and the braces only.
    rw [if_pos rfl]
    have hreaches : Reaches state { state with nesting := state.nesting + 1 } :=
      .single (.enter state)
    have hentered : Stands source { state with nesting := state.nesting + 1 } :=
      ⟨hstands.read.reaches hreaches, hstands.ended, hlimit⟩
    have hrest := hbody options _ hentered (hpast.trans hreaches) hstarts
    refine (hrest.after hreaches).bind ?_
    rintro value next ⟨hnext, hreaches', hmade⟩
    have hleave : Returns leave ⟨source, options⟩ next fun _ last =>
        last = { next with nesting := next.nesting - 1 } := returns_modify.mpr rfl
    refine hleave.leads.bind ?_
    rintro _ _ rfl
    have hleft : Reaches next { next with nesting := next.nesting - 1 } := .single (.leave next)
    exact leads_pure ⟨⟨hnext.read.reaches hleft, hnext.ended,
      Nat.le_trans (Nat.sub_le _ _) hnext.nesting⟩, hreaches'.trans hleft,
      hlasting value next _ hleft hmade⟩

end Parser
end SceneLang
