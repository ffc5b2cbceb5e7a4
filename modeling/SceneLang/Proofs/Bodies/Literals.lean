import SceneLang.Proofs.Bodies.Gists
import SceneLang.Proofs.Grammar.Lists

/-!
# Literals are read

In front of the tokens of a literal the parser reads just these, and nothing but the place where
it is changes.
-/

namespace SceneLang

open SceneLang.Parser
open Grammar

/-! ## Standing and passing -/

/-- The parser is in front of some tokens, and no value has failed. -/
structure Before (tokens : List Token) (state : State) : Prop where
  ended : Ended state.ahead
  visible : state.visibleFrom 0 = tokens
  calm : state.valueFailed = false

theorem Before.sees {token : Token} {rest : List Token} {state : State}
    (h : Before (token :: rest) state) : Sees token rest state :=
  ⟨h.ended, h.visible⟩

/-- The parser has gone on to some tokens, and has done nothing else. -/
structure Passes (rest : List Token) (state next : State) : Prop where
  eq : next = { state with ahead := rest, previous := next.previous }
  previous : ∃ token, next.previous = some token
  ended : Ended rest

namespace Passes

variable {rest more : List Token} {token : Token} {state next last : State}

theorem trans (h : Passes rest state next) (h' : Passes more next last) :
    Passes more state last :=
  ⟨h'.eq.trans (by rw [h.eq]), h'.previous, h'.ended⟩

theorem ahead (h : Passes rest state next) : next.ahead = rest := by
  rw [h.eq]

theorem braceDepth (h : Passes rest state next) : next.braceDepth = state.braceDepth := by
  rw [h.eq]

theorem nesting (h : Passes rest state next) : next.nesting = state.nesting := by
  rw [h.eq]

theorem valueFailed (h : Passes rest state next) : next.valueFailed = state.valueFailed := by
  rw [h.eq]

theorem log (h : Passes rest state next) : next.log = state.log := by
  rw [h.eq]

theorem features (h : Passes rest state next) : next.features = state.features := by
  rw [h.eq]

theorem nested (h : Passes rest state next) :
    Passes rest { state with nesting := state.nesting + 1 }
      { next with nesting := next.nesting + 1 } := by
  refine ⟨?_, h.previous, h.ended⟩
  rw [h.eq]

theorem before (h : Passes (token :: rest) state next) (hplain : token.kind.isLayout = false)
    (hcalm : state.valueFailed = false) : Before (token :: rest) next := by
  have hended : Ended next.ahead := h.ahead ▸ h.ended
  exact ⟨hended, (sees_of_ahead hended h.ahead hplain).visible, h.valueFailed.trans hcalm⟩

end Passes

theorem Before.passes {token : Token} {rest : List Token} {state : State}
    (h : Before (token :: rest) state) (hplain : Grammar.Plain token)
    (hbraces : ∀ depth, depthAfter depth token.kind = depth) :
    Passes rest state state.advance := by
  rw [h.sees.advance_eq hplain, hbraces]
  exact ⟨rfl, ⟨token, rfl⟩, h.sees.ended_rest hplain⟩

theorem Before.length_le {tokens : List Token} {state : State} (h : Before tokens state) :
    tokens.length ≤ state.ahead.length := by
  obtain ⟨hidden, hsplit, -⟩ := visible_append state.braceDepth state.ahead
  have hvisible : Parser.visible state.braceDepth state.ahead = tokens := h.visible
  rw [hsplit, hvisible, List.length_append]
  exact Nat.le_add_left _ _

/-- What has been read is not ahead any more. -/
theorem Passes.shorter {front back : List Token} {state next : State} (h : Passes back state next)
    (hbefore : Before (front ++ back) state) (hfront : front ≠ []) :
    next.ahead.length < state.ahead.length := by
  have hlength := hbefore.length_le
  rw [List.length_append] at hlength
  have hpos := List.length_pos_iff.mpr hfront
  rw [h.ahead]
  omega

/-! ## Values that stand alone -/

section

variable {context : Context} {state : State} {inner : Inner} {value : Value}
  {token : Token} {tokens rest : List Token}

/-- What is found, and what is left behind, by a parser of a value. -/
def Gives (p : Parser Value) (context : Context) (state : State) (value : Value)
    (rest : List Token) : Prop :=
  Returns p context state fun found next => found = value ∧ Passes rest state next

/-- A value that nothing is joined to is one of each level that goes on behind its values. -/
theorem Gives.looser (level : Level) (hlevel : level = .access ∨ level.isBinary = true)
    (h : Gives (level.tighter.parser inner) context state value rest)
    (hstops : ∀ line, Grammar.Stops .coalesce line state.braceDepth rest) :
    Gives (level.parser inner) context state value rest := by
  have hparser : level.parser inner = level.tighter.parser inner >>= level.resume inner := by
    rcases hlevel with rfl | hbinary
    · rfl
    · rw [Level.parser_of_isBinary inner hbinary]
      congr 1
      exact funext fun found => (Level.resume_of_isBinary inner found hbinary).symm
  rw [Gives, hparser]
  apply h.bind
  rintro found next ⟨rfl, hpasses⟩
  obtain ⟨last, hprevious⟩ := hpasses.previous
  obtain ⟨follow, others, hvisible, hends⟩ := hstops last.line
  have hfollow : Sees follow others next := by
    refine ⟨hpasses.ahead ▸ hpasses.ended, ?_⟩
    rw [State.visibleFrom, hpasses.ahead, hpasses.braceDepth]
    exact hvisible
  exact returns_resume_of_ends hfollow (by rw [hprevious]; rfl)
    (hends.mono (by cases level <;> decide)) ⟨rfl, hpasses⟩

/-- Without an operator in front of it, it is one of the level of these operators. -/
theorem Gives.unary (hbefore : Before (token :: tokens) state)
    (hmark : unaryOp? token.kind = none)
    (h : Gives (postfixed inner) context state value rest) :
    Gives (Parser.unary inner) context state value rest := by
  have hturn : Returns (prefixTurn []) context state fun result next =>
      result = .done [] ∧ next = state := by
    rw [prefixTurn, returns_bind, hbefore.sees.currentKind]
    unfold unaryOp? at hmark
    split
    next hkind => rw [hkind] at hmark; contradiction
    next hkind => rw [hkind] at hmark; contradiction
    next => exact returns_pure.mpr ⟨rfl, rfl⟩
  rw [Gives, Parser.unary, returns_bind, returns_iterate]
  apply hturn.mono
  rintro _ _ ⟨rfl, rfl⟩
  apply h.bind
  rintro found next hfound
  exact returns_pure.mpr hfound

/-- Without a question mark behind it, it is one of the level of conditionals. -/
theorem Gives.conditional (hcalm : state.valueFailed = false)
    (h : Gives (equality inner) context state value rest)
    (hstops : ∀ line, Grammar.Stops .coalesce line state.braceDepth rest) :
    Gives (Parser.conditional inner) context state value rest := by
  rw [Gives, Parser.conditional, returns_bind, returns_valueFailed hcalm]
  apply h.bind
  rintro found next ⟨rfl, hpasses⟩
  have hnext : next.valueFailed = false := hpasses.valueFailed.trans hcalm
  obtain ⟨follow, others, hvisible, hends⟩ := hstops 0
  have hfollow : Sees follow others next := by
    refine ⟨hpasses.ahead ▸ hpasses.ended, ?_⟩
    rw [State.visibleFrom, hpasses.ahead, hpasses.braceDepth]
    exact hvisible
  have hquestion : follow.kind ≠ .question := by
    intro hkind
    have hjoins : joins? 0 follow = some .ternary := by rw [joins?, hkind]
    exact absurd (hends .ternary hjoins) (by decide)
  rw [returns_bind, returns_valueFailed hnext, Bool.false_and, if_neg Bool.false_ne_true,
    returns_bind, hfollow.eat_of_ne hquestion, if_neg Bool.false_ne_true, returns_pure]
  exact ⟨rfl, hpasses⟩

/-- A primary value that nothing is joined to is a value, one level of nesting further in. -/
theorem Gives.nested {levels : Nat} (hbefore : Before (token :: tokens) state)
    (hmark : unaryOp? token.kind = none) (hroom : state.nesting < maxNesting)
    (hstops : ∀ line, Grammar.Stops .coalesce line state.braceDepth rest)
    (h : Gives (primary (nested levels)) context { state with nesting := state.nesting + 1 } value
      rest) :
    Gives (Parser.nested (levels + 1) .any) context state value rest := by
  have hinside : Before (token :: tokens) { state with nesting := state.nesting + 1 } :=
    ⟨hbefore.ended, hbefore.visible, hbefore.calm⟩
  have haccess := Gives.looser .access (.inl rfl) h hstops
  have hunary := haccess.unary hinside hmark
  have hproduct := Gives.looser .product (.inr rfl) hunary hstops
  have hsum := Gives.looser .sum (.inr rfl) hproduct hstops
  have hcomparison := Gives.looser .comparison (.inr rfl) hsum hstops
  have hequality : Gives (equality _) context _ value rest :=
    Gives.looser .equality (.inr rfl) hcomparison hstops
  have hconditional := hequality.conditional hinside.calm hstops
  have hand := Gives.looser .and (.inr rfl) hconditional hstops
  have hor := Gives.looser .or (.inr rfl) hand hstops
  have hvalue := Gives.looser .coalesce (.inr rfl) hor hstops
  rw [Gives, nested_eq_deeper, returns_deeper_of_lt hroom]
  apply hvalue.mono
  rintro found next ⟨rfl, hpasses⟩
  refine ⟨rfl, ?_, hpasses.previous, hpasses.ended⟩
  rw [hpasses.eq]
  rfl

end

/-! ## The tokens of a literal -/

namespace Outline

namespace Literal

mutual

/-- The tokens are those of the literal. -/
def Spelt : Literal → List Token → Prop
  | .atom word, tokens =>
      ∃ token, tokens = [token] ∧ token.kind = word.lexeme.kind ∧ token.text = word.text
  | .array [], tokens =>
      ∃ opening closing, tokens = [opening, closing] ∧ opening.kind = .leftBracket ∧
        closing.kind = .rightBracket
  | .array (item :: rest), tokens =>
      ∃ opening front back, tokens = opening :: (front ++ back) ∧ opening.kind = .leftBracket ∧
        item.Spelt front ∧ SpeltBehind rest back

/-- The tokens are those behind an item of an array, up to the closing bracket. -/
def SpeltBehind : List Literal → List Token → Prop
  | [], tokens => ∃ closing, tokens = [closing] ∧ closing.kind = .rightBracket
  | item :: rest, tokens =>
      ∃ comma front back, tokens = comma :: (front ++ back) ∧ comma.kind = .comma ∧
        item.Spelt front ∧ SpeltBehind rest back

end

/-- The first token of a literal is one that a value starts with, and is no operator. -/
theorem Spelt.head {literal : Literal} {tokens : List Token} (h : literal.Spelt tokens) :
    ∃ token rest, tokens = token :: rest ∧ startsPrimary token.kind = true ∧
      unaryOp? token.kind = none := by
  match literal with
  | .atom word =>
      obtain ⟨token, rfl, hkind, -⟩ := h
      have hmem := word.kind_mem
      rw [← hkind] at hmem
      simp only [List.mem_cons, List.not_mem_nil, or_false] at hmem
      rcases hmem with hmem | hmem | hmem | hmem <;>
        exact ⟨token, [], rfl, by rw [hmem]; rfl, by rw [hmem]; rfl⟩
  | .array [] =>
      obtain ⟨token, closing, rfl, hmem, -⟩ := h
      exact ⟨token, _, rfl, by rw [hmem]; rfl, by rw [hmem]; rfl⟩
  | .array (item :: rest) =>
      obtain ⟨token, front, back, rfl, hmem, -⟩ := h
      exact ⟨token, _, rfl, by rw [hmem]; rfl, by rw [hmem]; rfl⟩

end Literal

/-! ## Reading a literal -/

section

variable {context : Context} {state : State} {inner : Inner} {token : Token}
  {tokens rest : List Token} {values : List Value}

theorem gives_atom {word : Atom} (hbefore : Before (token :: rest) state)
    (hkind : token.kind = word.lexeme.kind) (htext : token.text = word.text) :
    Gives (primary inner) context state (atomValue word) rest := by
  have hmem := word.kind_mem
  rw [← hkind] at hmem
  simp only [List.mem_cons, List.not_mem_nil, or_false] at hmem
  rw [Gives, primary, returns_bind, hbefore.sees.current]
  unfold atomValue
  rw [← hkind, ← htext]
  rcases hmem with hmem | hmem | hmem | hmem <;> rw [hmem] <;> dsimp only <;>
    rw [returns_bind, hbefore.sees.advance, returns_pure] <;>
    exact ⟨rfl, hbefore.passes (.of_kind hmem rfl) fun _ => by rw [hmem]; rfl⟩

/-- What a loop over the items of an array comes to, up to the closing bracket. -/
def Lists (p : Parser (List Value × Bool)) (context : Context) (state : State)
    (values : List Value) (rest : List Token) : Prop :=
  Returns p context state fun found next => found = (values, true) ∧ Passes rest state next

theorem gives_array (hbefore : Before (token :: tokens) state)
    (hopening : token.kind = .leftBracket)
    (hlists : Lists (iterate ([], false) fun found => sequenceTurn inner .bracket found.1) context
      state.advance values.reverse rest) :
    Gives (primary inner) context state (.array values) rest := by
  have hopened := hbefore.passes (.of_kind hopening rfl) fun _ => by rw [hopening]; rfl
  rw [Gives, primary, returns_bind, hbefore.sees.current, hopening]
  dsimp only
  rw [returns_bind, hbefore.sees.advance, returns_bind, Parser.sequence, returns_bind]
  apply hlists.mono
  rintro _ next ⟨rfl, hpasses⟩
  have hcalm : next.valueFailed = false :=
    hpasses.valueFailed.trans (hopened.valueFailed.trans hbefore.calm)
  dsimp only
  rw [if_pos rfl, returns_bind, returns_setValueFailed hcalm, returns_pure, List.reverse_reverse,
    returns_pure]
  exact ⟨rfl, hopened.trans hpasses⟩

/-- The loop is over behind the closing bracket. -/
theorem lists_closing {flag : Bool} (hbefore : Before (token :: rest) state)
    (hclosing : token.kind = .rightBracket) :
    Lists (iterate (values, flag) fun found => sequenceTurn inner .bracket found.1) context state
      values rest := by
  have hkind : token.kind = Delimiter.bracket.closing := hclosing
  rw [Lists, returns_iterate, sequenceTurn, returns_bind, hbefore.sees.eat_of_eq hkind,
    if_pos rfl, returns_pure]
  exact ⟨rfl, hbefore.passes (.of_kind hclosing rfl) fun _ => by rw [hclosing]; rfl⟩

/-- One turn of the loop reads an item. -/
theorem returns_sequenceTurn {value : Value} {post : ForInStep (List Value × Bool) → State → Prop}
    (hbefore : Before (token :: tokens) state) (hstarts : startsPrimary token.kind = true)
    (hitem : Gives (inner .any) context state value rest)
    (hpost : ∀ next, Passes rest state next →
      Returns (sequenceNext .bracket (value :: values)) context next post) :
    Returns (sequenceTurn inner .bracket values) context state post := by
  have hvalue : startsValue token.kind = true := by rw [startsValue, hstarts, Bool.true_or]
  obtain ⟨hopen, hcloser⟩ := startsItem_open (.inl hvalue)
  have hspread : token.kind ≠ .spread := by
    intro hkind
    rw [hkind] at hvalue
    contradiction
  rw [sequenceTurn, returns_bind, hbefore.sees.eat_of_ne (hopen .bracket),
    if_neg Bool.false_ne_true, returns_bind, hbefore.sees.currentKind, hcloser,
    if_neg Bool.false_ne_true, returns_bind, returns_setValueFailed hbefore.calm, returns_bind,
    sequenceItem, returns_bind, hbefore.sees.eat_of_ne hspread, if_neg Bool.false_ne_true]
  apply hitem.mono
  rintro found next ⟨rfl, hpasses⟩
  rw [returns_bind, returns_ifFailed (hpasses.valueFailed.trans hbefore.calm)]
  exact hpost next hpasses

/-- What stands behind an item leads the loop to the closing bracket. -/
def LeadsOn (inner : Inner) (context : Context) (state : State) (found values : List Value)
    (rest : List Token) : Prop :=
  Returns (sequenceNext .bracket found) context state fun result next =>
    ∃ items, result = .yield items ∧ next.ahead.length ≤ state.ahead.length ∧
      Returns (iterate items fun found => sequenceTurn inner .bracket found.1) context next
        fun last final => last = (values, true) ∧ Passes rest state final

theorem lists_cons {value : Value} {front back : List Token} {found : List Value} {flag : Bool}
    (hbefore : Before (token :: front ++ back) state) (hstarts : startsPrimary token.kind = true)
    (hitem : Gives (inner .any) context state value back)
    (hnext : ∀ next, Passes back state next →
      LeadsOn inner context next (value :: found) values rest) :
    Lists (iterate (found, flag) fun found => sequenceTurn inner .bracket found.1) context state
      values rest := by
  rw [Lists, returns_iterate]
  apply returns_sequenceTurn hbefore hstarts hitem
  intro next hpasses
  apply (hnext next hpasses).mono
  rintro _ after ⟨items, rfl, hlength, hrest⟩
  have hshorter := hpasses.shorter hbefore (List.cons_ne_nil token front)
  refine ⟨by omega, hrest.mono ?_⟩
  rintro _ last ⟨rfl, hlast⟩
  exact ⟨rfl, hpasses.trans hlast⟩

end

namespace Literal

section

variable {literal : Literal} {items : List Literal} {token : Token} {front back rest : List Token}
  {found values : List Value} {flag : Bool} {inner : Inner} {context : Context} {state : State}

theorem plain_of_startsPrimary (h : startsPrimary token.kind = true) :
    token.kind.isLayout = false := by
  cases hkind : token.kind <;> rw [hkind] at h <;> first | rfl | contradiction

/-- Behind an item stands a comma or the closing bracket. -/
theorem SpeltBehind.head (h : SpeltBehind items back) :
    ∃ token others, back = token :: others ∧ token.kind.isLayout = false ∧
      ∀ line, joins? line token = none := by
  match items with
  | [] =>
      obtain ⟨token, rfl, hkind⟩ := h
      exact ⟨token, [], rfl, by rw [hkind]; rfl, fun line => by rw [joins?, hkind]⟩
  | item :: items =>
      obtain ⟨token, _, _, rfl, hkind, -⟩ := h
      exact ⟨token, _, rfl, by rw [hkind]; rfl, fun line => by rw [joins?, hkind]⟩

theorem SpeltBehind.stops (h : SpeltBehind items back) (line depth : Nat) :
    Grammar.Stops .coalesce line depth (back ++ rest) := by
  obtain ⟨token, others, rfl, hplain, hjoins⟩ := h.head
  exact stops_cons hplain (ends_of_joins?_eq_none (hjoins line))

theorem Spelt.lists (h : literal.Spelt front) (hback : SpeltBehind items back)
    (hbefore : Before (front ++ (back ++ rest)) state)
    (hgives : Gives (inner .any) context state literal.value (back ++ rest))
    (hleads : ∀ next, Passes (back ++ rest) state next → Before (back ++ rest) next →
      LeadsOn inner context next (literal.value :: found) values rest) :
    Lists (iterate (found, flag) fun found => sequenceTurn inner .bracket found.1) context state
      values rest := by
  obtain ⟨first, others, rfl, hstarts, -⟩ := h.head
  apply lists_cons hbefore hstarts hgives
  intro next hpasses
  apply hleads next hpasses
  obtain ⟨token, others, rfl, hplain, -⟩ := hback.head
  exact hpasses.before hplain hbefore.calm

/-- The items of an array stand behind an opening bracket or a comma. -/
theorem Spelt.before (h : literal.Spelt front) (hbefore : Before (token :: (front ++ rest)) state)
    (hplain : Grammar.Plain token) (hbraces : ∀ depth, depthAfter depth token.kind = depth) :
    Before (front ++ rest) state.advance := by
  obtain ⟨first, others, rfl, hstarts, -⟩ := h.head
  exact (hbefore.passes hplain hbraces).before (plain_of_startsPrimary hstarts) hbefore.calm

end

mutual

/-- A literal is read as its value. -/
theorem Spelt.gives {literal : Literal} {tokens rest : List Token} {levels : Nat}
    {context : Context} {state : State} (h : literal.Spelt tokens)
    (hbefore : Before (tokens ++ rest) state) (hlevels : literal.depth ≤ levels)
    (hroom : state.nesting + literal.depth ≤ maxNesting)
    (hstops : ∀ line, Grammar.Stops .coalesce line state.braceDepth rest) :
    Gives (nested levels .any) context state literal.value rest := by
  obtain ⟨token, others, rfl, -, hmark⟩ := h.head
  match literal, levels with
  | .atom word, levels + 1 =>
      obtain ⟨first, htokens, hkind, htext⟩ := h
      obtain ⟨rfl, rfl⟩ := List.cons.inj htokens
      apply Gives.nested hbefore hmark hroom hstops
      exact gives_atom ⟨hbefore.ended, hbefore.visible, hbefore.calm⟩ hkind htext
  | .array [], levels + 1 =>
      obtain ⟨opening, closing, htokens, hopening, hclosing⟩ := h
      obtain ⟨rfl, rfl⟩ := List.cons.inj htokens
      apply Gives.nested hbefore hmark (by rw [depth] at hroom; omega) hstops
      have hinside : Before (token :: closing :: rest)
          { state with nesting := state.nesting + 1 } :=
        ⟨hbefore.ended, hbefore.visible, hbefore.calm⟩
      have hopened := hinside.passes (.of_kind hopening rfl) fun _ => by rw [hopening]; rfl
      have hplain : closing.kind.isLayout = false := by rw [hclosing]; rfl
      exact gives_array hinside hopening
        (lists_closing (hopened.before hplain hbefore.calm) hclosing)
  | .array (item :: items), levels + 1 =>
      obtain ⟨opening, front, back, htokens, hopening, hitem, hitems⟩ := h
      obtain ⟨rfl, rfl⟩ := List.cons.inj htokens
      rw [depth, depthAll] at hlevels hroom
      apply Gives.nested hbefore hmark (by omega) hstops
      have hinside : Before (token :: (front ++ (back ++ rest)))
          { state with nesting := state.nesting + 1 } := by
        refine ⟨hbefore.ended, hbefore.visible.trans ?_, hbefore.calm⟩
        rw [List.cons_append, List.append_assoc]
      have hbraces (depth : Nat) : depthAfter depth token.kind = depth := by rw [hopening]; rfl
      have hopened := hinside.passes (.of_kind hopening rfl) hbraces
      have hfirst := hitem.before hinside (.of_kind hopening rfl) hbraces
      have hnesting := hopened.nesting
      dsimp only at hnesting
      apply gives_array hinside hopening
      rw [values, List.reverse_cons]
      apply hitem.lists hitems hfirst
      · exact hitem.gives hfirst (by omega) (by rw [hnesting]; omega)
          fun line => hitems.stops line _
      · intro next hpasses hnext
        exact hitems.leadsOn hnext (by omega) (by rw [hpasses.nesting, hnesting]; omega)

/-- What stands behind an item of an array is read up to the closing bracket. -/
theorem SpeltBehind.leadsOn {items : List Literal} {tokens rest : List Token} {levels : Nat}
    {found : List Value} {context : Context} {state : State} (h : SpeltBehind items tokens)
    (hbefore : Before (tokens ++ rest) state) (hlevels : depthAll items ≤ levels)
    (hroom : state.nesting + depthAll items ≤ maxNesting) :
    LeadsOn (nested levels) context state found ((values items).reverse ++ found) rest := by
  match items with
  | [] =>
      obtain ⟨closing, rfl, hclosing⟩ := h
      have hcomma : closing.kind ≠ .comma := by simp [hclosing]
      have hkind : closing.kind = Delimiter.bracket.closing := hclosing
      rw [LeadsOn, sequenceNext, returns_bind, hbefore.sees.eat_of_ne hcomma,
        if_neg Bool.false_ne_true, returns_bind, hbefore.sees.check, decide_eq_true hkind,
        if_pos rfl, returns_pure]
      exact ⟨_, rfl, Nat.le_refl _, lists_closing hbefore hclosing⟩
  | item :: items =>
      obtain ⟨comma, front, back, rfl, hcomma, hitem, hitems⟩ := h
      have hinside : Before (comma :: (front ++ (back ++ rest))) state := by
        refine ⟨hbefore.ended, hbefore.visible.trans ?_, hbefore.calm⟩
        rw [List.cons_append, List.append_assoc]
      have hplain : Grammar.Plain comma := .of_kind hcomma rfl
      have hbraces (depth : Nat) : depthAfter depth comma.kind = depth := by rw [hcomma]; rfl
      have hpassed := hinside.passes hplain hbraces
      have hfirst := hitem.before hinside hplain hbraces
      rw [depthAll] at hlevels hroom
      rw [LeadsOn, sequenceNext, returns_bind, hbefore.sees.eat_of_eq hcomma, if_pos rfl,
        returns_pure]
      refine ⟨_, rfl, Nat.le_of_lt (hpassed.shorter hinside (List.cons_ne_nil comma [])), ?_⟩
      rw [values, List.reverse_cons, List.append_assoc, List.singleton_append]
      have hlists : Lists (iterate (found, false) fun found =>
          sequenceTurn (nested levels) .bracket found.1) context state.advance
          ((values items).reverse ++ item.value :: found) rest := by
        apply hitem.lists hitems hfirst
        · exact hitem.gives hfirst (by omega) (by rw [hpassed.nesting]; omega)
            fun line => hitems.stops line _
        · intro next hpasses hnext
          exact hitems.leadsOn hnext (by omega) (by rw [hpasses.nesting, hpassed.nesting]; omega)
      apply hlists.mono
      rintro _ last ⟨rfl, hlast⟩
      exact ⟨rfl, hpassed.trans hlast⟩

end

end Literal

end Outline

end SceneLang
