import SceneLang.Proofs.Parser.Returns
import SceneLang.Proofs.Parser.Cursor
import SceneLang.Proofs.Tree.Sketch

/-!
# Parses that go in pairs

Two texts may differ in their margins, which the parser does not see within braces: there the
layout tokens of the one need not be those of the other.  What can be seen is the same on both
sides, so two parses of the texts go in pairs, and come to results that resemble each other.
-/

namespace SceneLang

def TokenKind.isBrace (kind : TokenKind) : Bool :=
  kind = .leftBrace || kind = .rightBrace

/-- Two tokens of the same kind and text, on the same line and equally wide, at places of the two
texts that correspond to each other.  Behind a line break the places may not do so. -/
structure Token.Twins (offset : Nat → Nat → Prop) (token twin : Token) : Prop where
  kind : token.kind = twin.kind
  text : token.text = twin.text
  line : token.line = twin.line
  start : offset token.span.start twin.span.start
  width : ∃ width, token.span.stop = token.span.start + width ∧
    twin.span.stop = twin.span.start + width
  stop : twin.kind.isLayout = false → offset token.span.stop twin.span.stop
  brace : twin.kind.isBrace = true → twin.text.length = 1

theorem Token.Twins.isWord {offset : Nat → Nat → Prop} {token twin : Token}
    (h : token.Twins offset twin) (word : String) : token.isWord word = twin.isWord word := by
  rw [Token.isWord, Token.isWord, h.kind, h.text]

theorem Token.Twins.symm {offset : Nat → Nat → Prop} {token twin : Token}
    (h : token.Twins offset twin) : twin.Twins (flip offset) token where
  kind := h.kind.symm
  text := h.text.symm
  line := h.line.symm
  start := h.start
  width := h.width.imp fun _ => And.symm
  stop := fun hplain => h.stop (h.kind ▸ hplain)
  brace := fun hbrace => h.text ▸ h.brace (h.kind ▸ hbrace)

/-- Two texts, which of their offsets correspond to each other, and how texts that are cut out
of them compare. -/
structure Margins where
  here : List Char
  there : List Char
  options : ParseOptions
  offset : Nat → Nat → Prop
  text : String → String
  order {a a' b b' : Nat} (ha : offset a a') (hb : offset b b') : a ≤ b ↔ a' ≤ b'
  slice {a a' b b' : Nat} (ha : offset a a') (hb : offset b b') :
    text (String.ofList (Text.trim (Text.slice here a b))) =
      text (String.ofList (Text.trim (Text.slice there a' b')))
  origin : offset 0 0
  whole : offset (Text.byteLength here) (Text.byteLength there)

/-- The two texts the other way round. -/
def Margins.symm (margins : Margins) : Margins where
  here := margins.there
  there := margins.here
  options := margins.options
  offset := flip margins.offset
  text := margins.text
  order ha hb := (margins.order ha hb).symm
  slice ha hb := (margins.slice ha hb).symm
  origin := margins.origin
  whole := margins.whole

/-- The tokens ahead of two parses are the same but for layout that is hidden within braces.
The flag says whether layout is just behind; elsewhere none is hidden. -/
inductive Woven (offset : Nat → Nat → Prop) : Bool → Nat → List Token → List Token → Prop
  | stop {behind : Bool} {depth : Nat} {token twin : Token} (htwins : token.Twins offset twin)
      (heof : twin.kind = .eof) : Woven offset behind depth [token] [twin]
  | both {behind : Bool} {depth : Nat} {token twin : Token} {rest rest' : List Token}
      (htwins : token.Twins offset twin) (heof : twin.kind ≠ .eof)
      (hrest : Woven offset twin.kind.isLayout (Parser.depthAfter depth twin.kind) rest rest') :
      Woven offset behind depth (token :: rest) (twin :: rest')
  | left {depth : Nat} {token : Token} {rest rest' : List Token} (hdepth : 0 < depth)
      (hlayout : token.kind.isLayout = true) (hrest : Woven offset true depth rest rest') :
      Woven offset true depth (token :: rest) rest'
  | right {depth : Nat} {twin : Token} {rest rest' : List Token} (hdepth : 0 < depth)
      (hlayout : twin.kind.isLayout = true) (hrest : Woven offset true depth rest rest') :
      Woven offset true depth rest (twin :: rest')

open SceneLang.Parser

namespace Woven

variable {offset : Nat → Nat → Prop} {behind : Bool} {depth : Nat} {tokens twins : List Token}

theorem ne_nil (h : Woven offset behind depth tokens twins) : tokens ≠ [] ∧ twins ≠ [] := by
  induction h with
  | stop => exact ⟨List.cons_ne_nil _ _, List.cons_ne_nil _ _⟩
  | both => exact ⟨List.cons_ne_nil _ _, List.cons_ne_nil _ _⟩
  | left _ _ _ ih => exact ⟨List.cons_ne_nil _ _, ih.2⟩
  | right _ _ _ ih => exact ⟨ih.1, List.cons_ne_nil _ _⟩

theorem symm (h : Woven offset behind depth tokens twins) :
    Woven (flip offset) behind depth twins tokens := by
  induction h with
  | stop htwins heof => exact .stop htwins.symm (htwins.kind.trans heof)
  | both htwins heof _ ih =>
      rw [← htwins.kind] at heof ih
      exact .both htwins.symm heof ih
  | left hdepth hlayout _ ih => exact .right hdepth hlayout ih
  | right hdepth hlayout _ ih => exact .left hdepth hlayout ih

/-- What can be seen on both sides: the two ends, or two tokens with the same ahead of them. -/
inductive Seen (offset : Nat → Nat → Prop) (depth : Nat) : List Token → List Token → Prop
  | stop {token twin : Token} (htwins : token.Twins offset twin) (heof : twin.kind = .eof) :
      Seen offset depth [token] [twin]
  | both {token twin : Token} {rest rest' : List Token} (htwins : token.Twins offset twin)
      (heof : twin.kind ≠ .eof) (hshown : ¬(0 < depth ∧ twin.kind.isLayout = true))
      (hrest : Woven offset twin.kind.isLayout (depthAfter depth twin.kind) rest rest') :
      Seen offset depth (token :: rest) (twin :: rest')

theorem visible_of_hidden {token : Token} {rest : List Token} (hdepth : 0 < depth)
    (hlayout : token.kind.isLayout = true) (hrest : rest ≠ []) :
    visible depth (token :: rest) = visible depth rest := by
  obtain ⟨next, others, rfl⟩ := List.exists_cons_of_ne_nil hrest
  rw [visible, if_pos]
  simp [hdepth, hlayout]

theorem visible_of_shown {token : Token} {rest : List Token}
    (hshown : ¬(0 < depth ∧ token.kind.isLayout = true)) :
    visible depth (token :: rest) = token :: rest := by
  cases rest with
  | nil => rfl
  | cons next others =>
      rw [visible, if_neg]
      simpa using hshown

theorem depthAfter_of_layout {kind : TokenKind} (h : kind.isLayout = true) (depth : Nat) :
    depthAfter depth kind = depth := by
  cases kind <;> first | rfl | contradiction

theorem depthAfter_of_plain {kind : TokenKind} (h : kind.isBrace = false) (depth : Nat) :
    depthAfter depth kind = depth := by
  cases kind <;> first | rfl | contradiction

theorem seen (h : Woven offset behind depth tokens twins) :
    Seen offset depth (visible depth tokens) (visible depth twins) := by
  induction h with
  | stop htwins heof => exact .stop htwins heof
  | @both behind depth token twin rest rest' htwins heof hrest ih =>
      by_cases hhidden : 0 < depth ∧ twin.kind.isLayout = true
      · rw [visible_of_hidden hhidden.1 (htwins.kind ▸ hhidden.2) hrest.ne_nil.1,
          visible_of_hidden hhidden.1 hhidden.2 hrest.ne_nil.2]
        rwa [depthAfter_of_layout hhidden.2] at ih
      · rw [visible_of_shown (htwins.kind ▸ hhidden), visible_of_shown hhidden]
        exact .both htwins heof hhidden hrest
  | left hdepth hlayout hrest ih =>
      rw [visible_of_hidden hdepth hlayout hrest.ne_nil.1]
      exact ih
  | right hdepth hlayout hrest ih =>
      rw [visible_of_hidden hdepth hlayout hrest.ne_nil.2]
      exact ih

end Woven

namespace Woven.Seen

variable {offset : Nat → Nat → Prop} {depth : Nat} {tokens twins : List Token}

theorem exists_cons (h : Seen offset depth tokens twins) :
    ∃ token rest twin rest', tokens = token :: rest ∧ twins = twin :: rest' ∧
      token.Twins offset twin := by
  cases h with
  | stop htwins => exact ⟨_, _, _, _, rfl, rfl, htwins⟩
  | both htwins => exact ⟨_, _, _, _, rfl, rfl, htwins⟩

/-- What can be seen behind a token that opens and closes no block. -/
theorem behind {token twin : Token} {rest rest' : List Token}
    (h : Seen offset depth (token :: rest) (twin :: rest')) (hbrace : twin.kind.isBrace = false) :
    Seen offset depth (visible depth (behind (token :: rest)))
      (visible depth (behind (twin :: rest'))) := by
  cases h with
  | stop htwins heof => exact .stop htwins heof
  | both htwins heof hshown hrest =>
      obtain ⟨next, others, hnext⟩ := List.exists_cons_of_ne_nil hrest.ne_nil.1
      obtain ⟨next', others', hnext'⟩ := List.exists_cons_of_ne_nil hrest.ne_nil.2
      subst hnext hnext'
      rw [depthAfter_of_plain hbrace] at hrest
      exact hrest.seen

/-- Line breaks that can be seen are passed over on both sides. -/
theorem dropBreaks (h : Seen offset depth tokens twins) :
    Seen offset depth (tokens.dropWhile fun token => token.kind = .newline)
      (twins.dropWhile fun token => token.kind = .newline) := by
  induction tokens generalizing twins with
  | nil => cases h
  | cons token rest ih =>
      cases h with
      | @stop _ twin htwins heof =>
          rw [List.dropWhile_cons_of_neg, List.dropWhile_cons_of_neg]
          · exact .stop htwins heof
          · simp [heof]
          · simp [htwins.kind, heof]
      | @both _ twin _ rest' htwins heof hshown hrest =>
          by_cases hbreak : twin.kind = .newline
          · have hzero : depth = 0 := by
              rw [hbreak] at hshown
              exact Nat.eq_zero_of_not_pos fun hdepth => hshown ⟨hdepth, rfl⟩
            subst hzero
            rw [List.dropWhile_cons_of_pos (by simpa using htwins.kind.trans hbreak),
              List.dropWhile_cons_of_pos (by simpa using hbreak)]
            rw [hbreak] at hrest
            have hseen := hrest.seen
            rw [show depthAfter 0 .newline = 0 from rfl, visible_zero, visible_zero] at hseen
            exact ih hseen
          · rw [List.dropWhile_cons_of_neg (by simpa [htwins.kind] using hbreak),
              List.dropWhile_cons_of_neg (by simpa using hbreak)]
            exact .both htwins heof hshown hrest

end Woven.Seen

namespace Parser

/-! ## States in pairs -/

/-- Two states in which the same is ahead and the same has been noted down, but for what the
reports say. -/
structure Paired (margins : Margins) (state twin : State) : Prop where
  ahead : ∃ behind, Woven margins.offset behind state.braceDepth state.ahead twin.ahead
  previous : (state.previous = none ∧ twin.previous = none) ∨
    ∃ token other, state.previous = some token ∧ twin.previous = some other ∧
      token.Twins margins.offset other ∧ other.kind.isLayout = false
  braceDepth : state.braceDepth = twin.braceDepth
  nesting : state.nesting = twin.nesting
  valueFailed : state.valueFailed = twin.valueFailed
  hasErrors : state.log.hasErrors = twin.log.hasErrors
  expressions : state.expressions = twin.expressions
  imports : state.imports = twin.imports
  features : state.features = twin.features

/-- Either both parses have read something or neither has. -/
def InStep (state next twin nextTwin : State) : Prop :=
  next.ahead = state.ahead ∧ nextTwin.ahead = twin.ahead ∨
    next.ahead.length < state.ahead.length ∧ nextTwin.ahead.length < twin.ahead.length

theorem InStep.refl (state twin : State) : InStep state state twin twin := .inl ⟨rfl, rfl⟩

theorem InStep.trans {first second third first' second' third' : State}
    (h : InStep first second first' second') (h' : InStep second third second' third') :
    InStep first third first' third' := by
  unfold InStep at *
  obtain ⟨hsame, hsame'⟩ | ⟨hless, hless'⟩ := h
  · rwa [hsame, hsame'] at h'
  · obtain ⟨hsame, hsame'⟩ | ⟨hmore, hmore'⟩ := h'
    · exact .inr ⟨hsame ▸ hless, hsame' ▸ hless'⟩
    · exact .inr ⟨Nat.lt_trans hmore hless, Nat.lt_trans hmore' hless'⟩

theorem length_lt_of_visible {state : State} {token : Token} {rest : List Token}
    (hvisible : state.visibleFrom 0 = token :: rest) : rest.length < state.ahead.length := by
  obtain ⟨hidden, hahead, -⟩ := visible_append state.braceDepth state.ahead
  rw [show visible state.braceDepth state.ahead = token :: rest from hvisible] at hahead
  rw [hahead, List.length_append, List.length_cons]
  omega

namespace Paired

variable {margins : Margins} {state twin : State}

theorem seen (h : Paired margins state twin) :
    Woven.Seen margins.offset state.braceDepth (state.visibleFrom 0) (twin.visibleFrom 0) := by
  obtain ⟨behind, hahead⟩ := h.ahead
  rw [State.visibleFrom, State.visibleFrom, ← h.braceDepth]
  exact hahead.seen

/-- The current tokens of both parses. -/
theorem exists_visible (h : Paired margins state twin) :
    ∃ rest rest', state.visibleFrom 0 = state.token :: rest ∧
      twin.visibleFrom 0 = twin.token :: rest' ∧ state.token.Twins margins.offset twin.token := by
  obtain ⟨token, rest, other, rest', hvisible, hvisible', htwins⟩ := h.seen.exists_cons
  have htoken := State.token_of_visible hvisible
  have htoken' := State.token_of_visible hvisible'
  rw [htoken, htoken']
  exact ⟨rest, rest', hvisible, hvisible', htwins⟩

/-- What can be seen further on, behind a token that opens and closes no block. -/
theorem seen_succ (h : Paired margins state twin) {count : Nat}
    (hseen : Woven.Seen margins.offset state.braceDepth (state.visibleFrom count)
      (twin.visibleFrom count))
    (hbrace : (twin.tokenAt count).kind.isBrace = false) :
    Woven.Seen margins.offset state.braceDepth (state.visibleFrom (count + 1))
      (twin.visibleFrom (count + 1)) := by
  obtain ⟨token, rest, other, rest', hvisible, hvisible', -⟩ := hseen.exists_cons
  have hother : twin.tokenAt count = other := by rw [State.tokenAt, hvisible', List.headD_cons]
  rw [hother] at hbrace
  rw [hvisible, hvisible'] at hseen
  have hbehind := hseen.behind hbrace
  rw [← hvisible, ← hvisible'] at hbehind
  rw [State.visibleFrom, State.visibleFrom, ← h.braceDepth]
  exact hbehind

theorem advance (h : Paired margins state twin) :
    Paired margins state.advance twin.advance ∧
      InStep state state.advance twin twin.advance := by
  obtain ⟨rest, rest', hvisible, hvisible', htwins⟩ := h.exists_visible
  by_cases heof : twin.token.kind = .eof
  · rw [advance_of_eof (htwins.kind.trans heof), advance_of_eof heof]
    exact ⟨h, .refl _ _⟩
  have heof' : state.token.kind ≠ .eof := by rwa [htwins.kind]
  have hseen := h.seen
  rw [hvisible, hvisible'] at hseen
  rw [State.advance_of_visible hvisible heof', State.advance_of_visible hvisible' heof]
  refine ⟨{ h with ahead := ?_, previous := ?_, braceDepth := ?_ }, .inr ⟨?_, ?_⟩⟩
  · cases hseen with
    | stop _ heof' => exact absurd heof' heof
    | both _ _ _ hrest => exact ⟨_, htwins.kind ▸ hrest⟩
  · dsimp only
    rw [htwins.kind]
    split
    · exact h.previous
    next hplain => exact .inr ⟨_, _, rfl, rfl, htwins, Bool.eq_false_iff.mpr hplain⟩
  · exact congrArg₂ depthAfter h.braceDepth htwins.kind
  · exact length_lt_of_visible hvisible
  · exact length_lt_of_visible hvisible'

end Paired

/-! ## Parsers in pairs -/

variable {α β : Type} {margins : Margins}

/-- Where the second parser comes to a result from one of two states, the first one comes from
the other to a result that has to do with it, and the states behind are a pair again. -/
def Couples (margins : Margins) (R : α → α → Prop) (p q : Parser α) (state twin : State) : Prop :=
  ∀ ⦃post : α → State → Prop⦄, Returns q ⟨margins.there, margins.options⟩ twin post →
    Returns p ⟨margins.here, margins.options⟩ state fun value next => ∃ value' next',
      post value' next' ∧ R value value' ∧ Paired margins next next' ∧
        InStep state next twin next'

def PairsBy (margins : Margins) (R : α → α → Prop) (p q : Parser α) : Prop :=
  ∀ ⦃state twin⦄, Paired margins state twin → Couples margins R p q state twin

/-- The parsers go in pairs where these are the current tokens. -/
def PairsAt (margins : Margins) (token other : Token) (R : α → α → Prop) (p q : Parser α) : Prop :=
  ∀ ⦃state twin⦄, Paired margins state twin → state.token = token → twin.token = other →
    Couples margins R p q state twin

/-- The results resemble each other. -/
abbrev Pairs [Sketched α] (margins : Margins) (p q : Parser α) : Prop :=
  PairsBy margins (Resembles margins.text) p q

/-- What a turn of a loop comes to, where values of the loop have to do with each other. -/
inductive TurnBy (R : β → β → Prop) : ForInStep β → ForInStep β → Prop
  | done {value value' : β} (h : R value value') : TurnBy R (.done value) (.done value')
  | yield {value value' : β} (h : R value value') : TurnBy R (.yield value) (.yield value')

theorem PairsBy.at {R : α → α → Prop} {p q : Parser α} (h : PairsBy margins R p q)
    (token other : Token) : PairsAt margins token other R p q :=
  fun _ _ hpaired _ _ => h hpaired

namespace Couples

variable {state twin : State} {p q : Parser α} {f g : α → Parser β} {R : α → α → Prop}
  {S : β → β → Prop}

theorem pure {value value' : α} (h : R value value') (hpaired : Paired margins state twin) :
    Couples margins R (pure value) (pure value') state twin := by
  intro post hpost
  rw [returns_pure] at hpost ⊢
  exact ⟨value', twin, hpost, h, hpaired, .refl _ _⟩

theorem bind (hp : Couples margins R p q state twin)
    (hf : ∀ value value', R value value' → PairsBy margins S (f value) (g value')) :
    Couples margins S (p >>= f) (q >>= g) state twin := by
  intro post hpost
  rw [returns_bind] at hpost ⊢
  apply (hp hpost).mono
  rintro value next ⟨value', next', hnext, hvalue, hpaired, hstep⟩
  apply (hf value value' hvalue hpaired hnext).mono
  rintro result last ⟨result', last', hlast, hresult, hpaired', hstep'⟩
  exact ⟨result', last', hlast, hresult, hpaired', hstep.trans hstep'⟩

/-- Both parsers begin with a look at their states. -/
theorem look {value value' : α} {pre pre' : Parser α}
    (hpre : ∀ post, Returns pre ⟨margins.here, margins.options⟩ state post ↔ post value state)
    (hpre' : ∀ post, Returns pre' ⟨margins.there, margins.options⟩ twin post ↔ post value' twin)
    (h : Couples margins S (f value) (g value') state twin) :
    Couples margins S (pre >>= f) (pre' >>= g) state twin := by
  intro post hpost
  rw [returns_bind, hpre'] at hpost
  rw [returns_bind, hpre]
  exact h hpost

end Couples

section

variable {p q : Parser α} {f g : α → Parser β} {R : α → α → Prop} {S : β → β → Prop}
  {token other : Token}

namespace PairsBy

theorem pure {value value' : α} (h : R value value') :
    PairsBy margins R (pure value) (pure value') :=
  fun _ _ => Couples.pure h

theorem throw (p : Parser α) (fault : Fault) : PairsBy margins R p (throw fault) := by
  rintro _ _ _ _ ⟨_, _, hrun, _⟩
  cases hrun

theorem bindBy (hp : PairsBy margins R p q)
    (hf : ∀ value value', R value value' → PairsBy margins S (f value) (g value')) :
    PairsBy margins S (p >>= f) (q >>= g) :=
  fun _ _ hpaired => (hp hpaired).bind hf

/-- A result that is its own sketch is handed on as it is. -/
theorem andThen [Sketched α] [Bare α] (hp : Pairs margins p q)
    (hf : ∀ value, PairsBy margins S (f value) (g value)) :
    PairsBy margins S (p >>= f) (q >>= g) :=
  hp.bindBy fun value _ hvalue => hvalue.eq ▸ hf value

theorem ite {c d : Prop} [Decidable c] [Decidable d] {p' q' : Parser α} (hcd : c ↔ d)
    (hp : d → PairsBy margins R p q) (hq : ¬d → PairsBy margins R p' q') :
    PairsBy margins R (if c then p else p') (if d then q else q') := by
  by_cases h : d
  · rw [if_pos h, if_pos (hcd.mpr h)]
    exact hp h
  · rw [if_neg h, if_neg fun hc => h (hcd.mp hc)]
    exact hq h

/-- Loops go in pairs if each turn does. -/
theorem iterateBy {step step' : β → Parser (ForInStep β)} {start start' : β}
    (hstart : S start start')
    (hturn : ∀ value value', S value value' →
      PairsBy margins (TurnBy S) (step value) (step' value')) :
    PairsBy margins S (Parser.iterate start step) (Parser.iterate start' step') := by
  intro state twin hpaired post hpost
  induction hlength : twin.ahead.length using Nat.strongRecOn generalizing start start' state twin
  case ind n ih =>
  rw [returns_iterate] at hpost ⊢
  apply (hturn start start' hstart hpaired hpost).mono
  rintro result next ⟨result', next', hnext, hresult, hpaired', hstep⟩
  cases hresult with
  | done hvalue => exact ⟨_, next', hnext, hvalue, hpaired', hstep⟩
  | yield hvalue =>
      obtain ⟨hshorter, hrest⟩ := hnext
      have hshorter' : next.ahead.length < state.ahead.length := by
        obtain ⟨_, hsame⟩ | ⟨hless, _⟩ := hstep
        · rw [hsame] at hshorter
          exact absurd hshorter (Nat.lt_irrefl _)
        · exact hless
      refine ⟨hshorter', ?_⟩
      apply (ih next'.ahead.length (hlength ▸ hshorter) hvalue hpaired' hrest rfl).mono
      rintro value last ⟨value', last', hlast, hvalue', hpaired'', hstep'⟩
      exact ⟨value', last', hlast, hvalue', hpaired'', hstep.trans hstep'⟩

end PairsBy

namespace PairsAt

theorem bindBy (hp : PairsAt margins token other R p q)
    (hf : ∀ value value', R value value' → PairsBy margins S (f value) (g value')) :
    PairsAt margins token other S (p >>= f) (q >>= g) :=
  fun _ _ hpaired htoken hother => (hp hpaired htoken hother).bind hf

theorem ite {c d : Prop} [Decidable c] [Decidable d] {p' q' : Parser α} (hcd : c ↔ d)
    (hp : d → PairsAt margins token other R p q) (hq : ¬d → PairsAt margins token other R p' q') :
    PairsAt margins token other R (if c then p else p') (if d then q else q') := by
  by_cases h : d
  · rw [if_pos h, if_pos (hcd.mpr h)]
    exact hp h
  · rw [if_neg h, if_neg fun hc => h (hcd.mp hc)]
    exact hq h

end PairsAt

/-! ## Looking ahead -/

theorem returns_peek_of_visible {context : Context} {state : State} {count : Nat} {first : Token}
    {rest : List Token} {post : Token → State → Prop}
    (hvisible : state.visibleFrom count = first :: rest) :
    Returns (peek count) context state post ↔ post first state := by
  simp only [peek, returns_bind, returns_get, hvisible, returns_pure]

theorem returns_check_of_visible {context : Context} {state : State} {kind : TokenKind}
    {first : Token} {rest : List Token} {post : Bool → State → Prop}
    (hvisible : state.visibleFrom 0 = first :: rest) :
    Returns (check kind) context state post ↔ post (decide (first.kind = kind)) state := by
  simp only [check, currentKind, current, returns_bind, returns_peek_of_visible hvisible,
    returns_pure]

theorem exists_visible_succ {state : State} {count : Nat} {first : Token} {rest : List Token}
    (hvisible : state.visibleFrom count = first :: rest) :
    ∃ others, state.visibleFrom (count + 1) = state.tokenAt (count + 1) :: others := by
  have hnext : state.visibleFrom (count + 1) ≠ [] := by
    rw [State.visibleFrom, hvisible]
    refine visible_ne_nil ?_
    cases rest <;> exact List.cons_ne_nil _ _
  obtain ⟨next, others, hcons⟩ := List.exists_cons_of_ne_nil hnext
  exact ⟨others, by rw [State.tokenAt, hcons, List.headD_cons]⟩

theorem returns_peekKind_of_visible {context : Context} {state : State} {count : Nat}
    {first : Token} {rest : List Token} {post : TokenKind → State → Prop}
    (hvisible : state.visibleFrom count = first :: rest) :
    Returns (peekKind count) context state post ↔ post first.kind state := by
  simp only [peekKind, returns_bind, returns_peek_of_visible hvisible, returns_pure]

namespace PairsAt

theorem current {f g : Token → Parser β}
    (h : PairsAt margins token other S (f token) (g other)) :
    PairsAt margins token other S (current >>= f) (current >>= g) := by
  rintro state twin hpaired rfl rfl
  obtain ⟨_, _, hvisible, hvisible', _⟩ := hpaired.exists_visible
  exact .look (fun _ => returns_peek_of_visible hvisible)
    (fun _ => returns_peek_of_visible hvisible') (h hpaired rfl rfl)

theorem currentKind {f g : TokenKind → Parser β}
    (h : PairsAt margins token other S (f token.kind) (g other.kind)) :
    PairsAt margins token other S (currentKind >>= f) (currentKind >>= g) := by
  rintro state twin hpaired rfl rfl
  obtain ⟨_, _, hvisible, hvisible', _⟩ := hpaired.exists_visible
  exact .look (fun _ => returns_peekKind_of_visible hvisible)
    (fun _ => returns_peekKind_of_visible hvisible') (h hpaired rfl rfl)

theorem check {kind : TokenKind} {f g : Bool → Parser β}
    (h : PairsAt margins token other S (f (token.kind = kind)) (g (other.kind = kind))) :
    PairsAt margins token other S (check kind >>= f) (check kind >>= g) := by
  rintro state twin hpaired rfl rfl
  obtain ⟨_, _, hvisible, hvisible', _⟩ := hpaired.exists_visible
  exact .look (fun _ => returns_check_of_visible hvisible)
    (fun _ => returns_check_of_visible hvisible') (h hpaired rfl rfl)

/-- The token behind a brace may be seen on one side only. -/
theorem peek {f g : Token → Parser β}
    (h : ∀ next next' : Token, (other.kind.isBrace = false → next.Twins margins.offset next') →
      PairsAt margins token other S (f next) (g next')) :
    PairsAt margins token other S (peek 1 >>= f) (peek 1 >>= g) := by
  rintro state twin hpaired rfl rfl
  obtain ⟨_, _, hvisible, hvisible', _⟩ := hpaired.exists_visible
  obtain ⟨_, hnext⟩ := exists_visible_succ hvisible
  obtain ⟨_, hnext'⟩ := exists_visible_succ hvisible'
  refine .look (fun _ => returns_peek_of_visible hnext) (fun _ => returns_peek_of_visible hnext')
    (h _ _ (fun hbrace => ?_) hpaired rfl rfl)
  obtain ⟨next, _, next', _, hcons, hcons', htwins⟩ :=
    (hpaired.seen_succ hpaired.seen hbrace).exists_cons
  rw [hnext] at hcons
  rw [hnext'] at hcons'
  cases hcons
  cases hcons'
  exact htwins

theorem peekKind {f g : TokenKind → Parser β}
    (h : ∀ next next' : TokenKind, (other.kind.isBrace = false → next = next') →
      PairsAt margins token other S (f next) (g next')) :
    PairsAt margins token other S (peekKind 1 >>= f) (peekKind 1 >>= g) := by
  have hbind (f : TokenKind → Parser β) :
      Parser.peekKind 1 >>= f = Parser.peek 1 >>= fun next => f next.kind := by
    simp only [Parser.peekKind, bind_assoc, pure_bind]
  rw [hbind, hbind]
  exact peek fun next next' htwins => h _ _ fun hbrace => (htwins hbrace).kind

end PairsAt

namespace PairsBy

/-- The tokens at hand are twins. -/
theorem facing (h : ∀ token other : Token, token.Twins margins.offset other →
    PairsAt margins token other R p q) : PairsBy margins R p q := by
  intro state twin hpaired
  obtain ⟨_, _, _, _, htwins⟩ := hpaired.exists_visible
  exact h _ _ htwins hpaired rfl rfl

theorem current {f g : Token → Parser β}
    (h : ∀ token other : Token, token.Twins margins.offset other →
      PairsAt margins token other S (f token) (g other)) :
    PairsBy margins S (current >>= f) (current >>= g) :=
  facing fun token other htwins => .current (h token other htwins)

theorem currentKind {f g : TokenKind → Parser β}
    (h : ∀ token other : Token, token.Twins margins.offset other →
      PairsAt margins token other S (f other.kind) (g other.kind)) :
    PairsBy margins S (currentKind >>= f) (currentKind >>= g) :=
  facing fun token other htwins => .currentKind (htwins.kind ▸ h token other htwins)

theorem check {kind : TokenKind} {f g : Bool → Parser β}
    (h : ∀ found, PairsBy margins S (f found) (g found)) :
    PairsBy margins S (check kind >>= f) (check kind >>= g) :=
  facing fun token other htwins => .check (htwins.kind ▸ (h _).at token other)

end PairsBy

end

end Parser
end SceneLang
