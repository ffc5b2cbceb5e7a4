import SceneLang.Proofs.Bodies.Literals
import SceneLang.Proofs.Parser.Elements

/-!
# Items are read

In front of the tokens of an item the parser reads just these, and comes to what the outline
says, whether bodies are indented or in braces.
-/

namespace SceneLang

open SceneLang.Parser
open Grammar

/-! ## Going on behind an item -/

/-- The parser has gone on to some tokens, at the level of braces and of nesting where it
was. -/
structure Goes (rest : List Token) (state next : State) : Prop where
  ended : Ended next.ahead
  ahead : next.ahead = rest
  braceDepth : next.braceDepth = state.braceDepth
  nesting : next.nesting = state.nesting
  calm : next.valueFailed = false

theorem Goes.of_passes {rest : List Token} {state next : State} (h : Passes rest state next)
    (hcalm : state.valueFailed = false) : Goes rest state next :=
  ⟨h.ahead ▸ h.ended, h.ahead, h.braceDepth, h.nesting, h.valueFailed.trans hcalm⟩

/-- Within braces layout is passed over. -/
theorem visible_layout {depth : Nat} {token : Token} {gap rest : List Token} (hdepth : 0 < depth)
    (hgap : ∀ token ∈ gap, token.kind.isLayout = true) (hplain : token.kind.isLayout = false) :
    visible depth (gap ++ token :: rest) = token :: rest := by
  induction gap with
  | nil => exact visible_cons hplain
  | cons first gap ih =>
      obtain ⟨hfirst, hgap⟩ := List.forall_mem_cons.mp hgap
      have hstep (next : Token) (more : List Token) :
          visible depth (first :: next :: more) = visible depth (next :: more) := by
        rw [visible, hfirst, decide_eq_true hdepth]
        rfl
      cases gap with
      | nil => exact (hstep token rest).trans (ih hgap)
      | cons next gap => exact (hstep next (gap ++ token :: rest)).trans (ih hgap)

theorem Goes.before {token : Token} {gap rest : List Token} {state next : State}
    (h : Goes (gap ++ token :: rest) state next)
    (hdepth : 0 < state.braceDepth) (hgap : ∀ token ∈ gap, token.kind.isLayout = true)
    (hplain : token.kind.isLayout = false) : Before (token :: rest) next := by
  refine ⟨h.ended, ?_, h.calm⟩
  rw [State.visibleFrom, h.ahead, h.braceDepth]
  exact visible_layout hdepth hgap hplain

/-- The next token but one can be seen too, unless it is layout within braces. -/
theorem tokenAt_one {first second : Token} {rest : List Token} {state : State}
    (h : state.visibleFrom 0 = first :: second :: rest)
    (hsecond : state.braceDepth = 0 ∨ second.kind.isLayout = false) :
    state.tokenAt 1 = second := by
  have hvisible : state.visibleFrom 1 = second :: rest := by
    rw [State.visibleFrom, h]
    rcases hsecond with hdepth | hplain
    · rw [hdepth]
      exact visible_zero _
    · exact visible_cons hplain
  rw [State.tokenAt, hvisible]
  rfl

/-- Outside of braces a token of layout is read like any other one. -/
theorem advance_layout {token : Token} {rest : List Token} {state : State}
    (hsees : Sees token rest state) (hlayout : token.kind.isLayout = true) :
    state.advance = { state with ahead := rest } ∧ Ended rest := by
  have heof : token.kind ≠ .eof := by
    intro hkind
    rw [hkind] at hlayout
    contradiction
  have hbraces : depthAfter state.braceDepth token.kind = state.braceDepth := by
    cases hkind : token.kind <;> rw [hkind] at hlayout <;> first | rfl | contradiction
  have hreads : Reads state state.advance :=
    advance_reads hsees.ended (by rw [hsees.token_eq]; exact heof)
  have hended := hreads.moved.ended hsees.ended
  rw [State.advance_of_visible hsees.visible heof, hbraces, if_pos hlayout] at hended ⊢
  exact ⟨rfl, hended⟩

namespace Outline

/-! ## The tokens of an item -/

/-- Does the item go on below its line where bodies are indented? -/
def Item.hasLines : Item → Bool
  | .element ⟨_, _, _ :: _⟩ => true
  | _ => false

/-- What stands between an item and the next one. -/
def Between (style : Style) (item : Item) (gap : List Token) : Prop :=
  match style with
  | .braced => ∀ token ∈ gap, token.kind.isLayout = true
  | .indented =>
      if item.hasLines then gap = [] else ∃ line, gap = [line] ∧ line.kind = .newline

/-- The tokens are those of the line of an element, up to its body. -/
def HeadSpelt (keyword : Keyword) (name : Option Quoted) (tokens : List Token) : Prop :=
  ∃ word, word.kind = .identifier ∧ word.text = keyword.word ∧
    match name with
    | none => tokens = [word]
    | some name =>
        ∃ token, tokens = [word, token] ∧ token.kind = .string ∧ token.text = name.text ∧
          token.line = word.line

section

variable (style : Style)

mutual

/-- The tokens are those of the item. -/
def Item.Spelt : Item → List Token → Prop
  | .property key literal, tokens =>
      ∃ word colon value, tokens = word :: colon :: value ∧ word.kind = .identifier ∧
        word.text = key.text ∧ colon.kind = .colon ∧ literal.Spelt value
  | .trait name _, tokens =>
      ∃ mark word, tokens = [mark, word] ∧ mark.kind = .at ∧ word.kind = .identifier ∧
        word.text = name
  | .element element, tokens => element.Spelt tokens

def Element.Spelt : Element → List Token → Prop
  | ⟨keyword, name, items⟩, tokens =>
      ∃ head body, tokens = head ++ body ∧ HeadSpelt keyword name head ∧
        match style with
        | .braced =>
            ∃ opening gap inside closing, body = opening :: (gap ++ (inside ++ [closing])) ∧
              opening.kind = .leftBrace ∧ (∀ token ∈ gap, token.kind.isLayout = true) ∧
              Item.SpeltAll items inside ∧ closing.kind = .rightBrace
        | .indented =>
            items = [] ∧ body = [] ∨
              items ≠ [] ∧ ∃ line indent inside dedent,
                body = line :: indent :: (inside ++ [dedent]) ∧ line.kind = .newline ∧
                  indent.kind = .indent ∧ Item.SpeltAll items inside ∧ dedent.kind = .dedent

/-- The tokens are those of the items of a body, with what stands behind each of them. -/
def Item.SpeltAll : List Item → List Token → Prop
  | [], tokens => tokens = []
  | item :: rest, tokens =>
      ∃ front gap back, tokens = front ++ (gap ++ back) ∧ item.Spelt front ∧
        Between style item gap ∧ Item.SpeltAll rest back

end

end

/-- Words and at signs are what items start with. -/
def startsItem (kind : TokenKind) : Bool :=
  kind = .identifier || kind = .at

theorem HeadSpelt.head {keyword : Keyword} {name : Option Quoted} {tokens : List Token}
    (h : HeadSpelt keyword name tokens) :
    ∃ word rest, tokens = word :: rest ∧ word.kind = .identifier ∧ word.text = keyword.word := by
  obtain ⟨word, hkind, htext, htokens⟩ := h
  cases name with
  | none => exact ⟨word, [], htokens, hkind, htext⟩
  | some name =>
      obtain ⟨token, rfl, -⟩ := htokens
      exact ⟨word, [token], rfl, hkind, htext⟩

theorem Item.Spelt.head {style : Style} {item : Item} {tokens : List Token}
    (h : item.Spelt style tokens) :
    ∃ token rest, tokens = token :: rest ∧ startsItem token.kind = true := by
  match item with
  | .property key literal =>
      obtain ⟨word, colon, value, rfl, hkind, -⟩ := h
      exact ⟨word, _, rfl, by rw [startsItem, hkind]; rfl⟩
  | .trait name _ =>
      obtain ⟨mark, word, rfl, hkind, -⟩ := h
      exact ⟨mark, _, rfl, by rw [startsItem, hkind]; rfl⟩
  | .element ⟨keyword, name, items⟩ =>
      obtain ⟨head, body, rfl, hhead, -⟩ := h
      obtain ⟨word, rest, rfl, hkind, -⟩ := hhead.head
      exact ⟨word, _, rfl, by rw [startsItem, hkind]; rfl⟩

/-- What can be seen behind an item that has no lines of its own: the end of its line, or in
braces the next item or the closing brace. -/
def EndsItem (depth : Nat) (rest : List Token) : Prop :=
  ∃ next others, visible depth rest = next :: others ∧
    (next.kind = .newline ∨ next.kind = .rightBrace ∨ startsItem next.kind = true)

/-! ## Properties -/

section

variable {context : Context} {state : State} {gist : Gist} {node : Node}

theorem returns_checkGeometry {key place : Token} {value : Value} {post : Unit → State → Prop}
    (hfits : gist.Fits node state)
    (hpost : ∀ log, ((geometryReports key.text value).foldl Gist.report gist).Fits node
      { state with log := log } → post () { state with log := log }) :
    Returns (checkGeometry key value place) context state post := by
  unfold checkGeometry
  cases value with
  | string geometry =>
      dsimp only [geometryReports] at hpost ⊢
      split
      next hunknown =>
        rw [if_pos hunknown] at hpost
        apply returns_modify.mpr
        apply hpost
        have hreported := hfits.report (d := .unknownGeometry geometry place.span place.position)
        rwa [Diagnostic.unplaced_unknownGeometry] at hreported
      next hknown =>
        rw [if_neg hknown] at hpost
        exact returns_pure.mpr (hpost state.log hfits)
  | _ => exact returns_pure.mpr (hpost state.log hfits)

theorem returns_checkProperty {key place : Token} {value : Value} {post : Unit → State → Prop}
    (hfits : gist.Fits node state)
    (hpost : ∀ log, ((propertyReports key.text value).foldl Gist.report gist).Fits node
      { state with log := log } → post () { state with log := log }) :
    Returns (checkProperty key value place) context state post := by
  have hmisspelled := Diagnostic.unplaced_misspelledProperty? key.text key.span key.position
  rw [propertyReports, ← hmisspelled, List.foldl_append] at hpost
  rw [checkProperty]
  cases hfound : Diagnostic.misspelledProperty? key.text key.span key.position with
  | none =>
      rw [hfound] at hpost
      exact returns_checkGeometry hfits hpost
  | some d =>
      rw [hfound] at hpost
      dsimp only
      rw [returns_bind, report, returns_modify]
      exact returns_checkGeometry hfits.report hpost

theorem EndsItem.stops {depth : Nat} {rest : List Token} (h : EndsItem depth rest) (line : Nat) :
    Grammar.Stops .coalesce line depth rest := by
  obtain ⟨next, others, hvisible, hkind⟩ := h
  refine ⟨next, others, hvisible, ends_of_joins?_eq_none ?_⟩
  simp only [startsItem, Bool.or_eq_true, decide_eq_true_eq] at hkind
  unfold joins?
  rcases hkind with hkind | hkind | hkind | hkind <;> rw [hkind]

theorem Literal.Spelt.returns_valueOr {literal : Literal} {tokens rest : List Token}
    {recover : Parser Unit} (h : literal.Spelt tokens) (hbefore : Before (tokens ++ rest) state)
    (hroom : state.nesting + literal.depth ≤ maxNesting)
    (hstops : ∀ line, Grammar.Stops .coalesce line state.braceDepth rest) :
    Returns (valueOr recover) context state fun found next =>
      found = literal.value ∧ Passes rest state next := by
  rw [valueOr, returns_bind, returns_setValueFailed hbefore.calm, returns_bind, Parser.value]
  apply (h.gives hbefore (by omega) hroom hstops).mono
  rintro found next ⟨rfl, hpasses⟩
  rw [returns_bind, returns_ifFailed (hpasses.valueFailed.trans hbefore.calm), returns_pure]
  exact ⟨rfl, hpasses⟩

/-- A word with a colon behind it is the name of a property. -/
theorem returns_property {style : Style} {key : Key} {literal : Literal} {tokens rest : List Token}
    {post : Node → State → Prop}
    (hspelt : (Item.property key literal).Spelt style tokens)
    (hbefore : Before (tokens ++ rest) state) (hfits : gist.Fits node state)
    (hroom : state.nesting + literal.depth ≤ maxNesting) (hends : EndsItem state.braceDepth rest)
    (hpost : ∀ found next, (gist.property key.text literal.value).Fits found next →
      Goes rest state next → post found next) :
    Returns (property node) context state post := by
  obtain ⟨word, colon, value, rfl, hword, htext, hcolon, hvalue⟩ := hspelt
  have hplain : Grammar.Plain word := .of_kind hword rfl
  have hnamed := hbefore.passes hplain fun _ => by rw [hword]; rfl
  have hinside := hnamed.before (by rw [hcolon]; rfl) hbefore.calm
  have hbraces (depth : Nat) : depthAfter depth colon.kind = depth := by rw [hcolon]; rfl
  have hseparated := hinside.passes (.of_kind hcolon rfl) hbraces
  have hvalueBefore := hvalue.before hinside (.of_kind hcolon rfl) hbraces
  have hpassed := hnamed.trans hseparated
  rw [property, returns_bind, hbefore.sees.current, returns_bind, hbefore.sees.advance,
    returns_bind, hinside.sees.currentKind, hcolon]
  dsimp only
  rw [if_pos (show TokenKind.colon.separatesKey = true from rfl), returns_bind,
    hinside.sees.advance, returns_bind, returns_current hvalueBefore.ended, returns_bind]
  apply (hvalue.returns_valueOr hvalueBefore (by rw [hpassed.nesting]; exact hroom)
    (by rw [hpassed.braceDepth]; exact hends.stops)).mono
  rintro _ next ⟨rfl, hread⟩
  have hwhole := hpassed.trans hread
  rw [returns_bind]
  apply returns_checkProperty (hfits.of_eq hwhole.log hwhole.features)
  intro log hreported
  rw [htext] at hreported
  rw [returns_pure, htext]
  refine hpost _ _ ?_ ?_
  · exact hreported.with_node (hfits.node.with_properties (hfits.node.properties.insert (.refl _)))
  · have hgoes := Goes.of_passes hwhole hbefore.calm
    exact ⟨hgoes.ended, hgoes.ahead, hgoes.braceDepth, hgoes.nesting, hgoes.calm⟩

theorem returns_propertyAhead_of_colon {word colon : Token} {rest : List Token}
    {post : Bool → State → Prop} (hbefore : Before (word :: colon :: rest) state)
    (hcolon : colon.kind = .colon) (hpost : post true state) :
    Returns propertyAhead context state post := by
  have hplain : colon.kind.isLayout = false := by rw [hcolon]; rfl
  rw [propertyAhead, returns_bind, hbefore.sees.current, returns_bind, returns_peek hbefore.ended,
    tokenAt_one hbefore.visible (.inr hplain), if_pos (by rw [hcolon]; rfl), returns_pure]
  exact hpost

/-! ## Traits -/

/-- The names of traits are no names of directives, but for that of a state. -/
theorem ne_directive_of_isTrait {name : String} (h : Vocabulary.isTrait name = true) :
    name ≠ "for" ∧ name ≠ "forEach" ∧ name ≠ "while" ∧ name ≠ "if" ∧ name ≠ "else" ∧
      name ≠ "import" ∧ name ≠ "bindings" ∧ Setting.ofName? name = none ∧
      Topic.ofName? name = none ∧ Vocabulary.isHook name = false ∧
      "on_".toList.isPrefixOf name.toList = false := by
  have hall : ∀ name ∈ Vocabulary.traits, name ≠ "for" ∧ name ≠ "forEach" ∧ name ≠ "while" ∧
      name ≠ "if" ∧ name ≠ "else" ∧ name ≠ "import" ∧ name ≠ "bindings" ∧
      Setting.ofName? name = none ∧ Topic.ofName? name = none ∧
      Vocabulary.isHook name = false ∧ "on_".toList.isPrefixOf name.toList = false := by
    decide +kernel
  exact hall name (List.contains_iff_mem.mp h)

theorem returns_directiveNamed {held : Held} {word : Token} {span : Span} {position : Position}
    {post : Option Directive → State → Prop} (known : Vocabulary.isTrait word.text = true) :
    Returns (directiveNamed held word span position true) context state post ↔
      Returns (if word.text = "state" then do return some (.state (← directiveConfig true).config)
        else traitDirective word true) context state post := by
  obtain ⟨hfor, heach, hwhile, hif, helse, himport, hbindings, hsetting, htopic, hhook, hon⟩ :=
    ne_directive_of_isTrait known
  rw [directiveNamed, if_neg hfor, if_neg heach, if_neg hwhile, if_neg hif, if_neg helse,
    returns_bind, returns_read, decide_eq_false himport, Bool.false_and, if_neg Bool.false_ne_true,
    if_neg hbindings, hsetting, htopic, hhook, hon, Bool.false_or, if_neg Bool.false_ne_true]

/-- A name that stands alone has no configuration. -/
theorem returns_directiveConfig {allowBody : Bool} {token : Token} {rest : List Token}
    {post : TraitConfig → State → Prop} (hsees : Sees token rest state)
    (hkind : token.kind = .newline ∨ token.kind = .rightBrace ∨ startsItem token.kind = true)
    (hpost : post .empty state) :
    Returns (directiveConfig allowBody) context state post := by
  have hother {kind : TokenKind} (hneither : kind ≠ .newline ∧ kind ≠ .rightBrace ∧
      startsItem kind = false) : token.kind ≠ kind := by
    rintro rfl
    simp [hneither] at hkind
  have hparen : token.kind ≠ .leftParen := hother (by decide)
  have hstring : token.kind ≠ .string := hother (by decide)
  have hbrace : token.kind ≠ .leftBrace := hother (by decide)
  rw [directiveConfig, returns_bind, previousLine, returns_bind, returns_get, returns_pure,
    returns_bind, arguments, returns_bind, hsees.current, if_neg fun h => hparen h.1, returns_pure,
    returns_bind, returns_iterate, textTurn, returns_bind, hsees.current,
    if_neg fun h => hstring h.1, returns_pure]
  dsimp only
  rw [returns_bind, hsees.check, decide_eq_false hbrace, Bool.and_false,
    if_neg Bool.false_ne_true, returns_pure]
  exact hpost

/-- A trait is attached, and a second one of its name reported. -/
theorem returns_attach_trait {name : String} {directive : Directive} {span : Span}
    {position : Position} {post : Node → State → Prop}
    (hdirective : directive = .trait name .empty ∨ directive = .generic name .empty)
    (hfits : gist.Fits node state)
    (hpost : ∀ log, (gist.attachTrait name directive).Fits (node.attach directive)
      { state with log := log } → post (node.attach directive) { state with log := log }) :
    Returns (attach node ⟨directive, span, position⟩) context state post := by
  have hattached (noted : Gist) (log : Log) (hnoted : noted.Fits node { state with log := log }) :
      ({ noted with node := gist.node.attach directive } : Gist).Fits (node.attach directive)
        { state with log := log } :=
    hnoted.with_node (hfits.node.attach (.refl directive))
  have hknown := hfits.node.hasTrait name
  rw [Gist.attachTrait, ← hknown] at hpost
  have hstep : Returns (if node.hasTrait name then do
        report (.warning .duplicateName span position
          s!"trait '@{name}' is declared more than once; the last declaration wins")
        return node.attach directive
      else return node.attach directive) context state post := by
    rw [returns_ite]
    constructor
    · intro hsecond
      rw [if_pos hsecond] at hpost
      rw [returns_bind, report, returns_modify, returns_pure]
      have hreported := hfits.report (d := .warning .duplicateName span position
        s!"trait '@{name}' is declared more than once; the last declaration wins")
      exact hpost _ (hattached _ _ hreported)
    · intro hfirst
      rw [if_neg hfirst] at hpost
      rw [returns_pure]
      exact hpost _ (hattached _ _ hfits)
  rcases hdirective with rfl | rfl
  · exact hstep
  · exact hstep

/-- A trait is kept where traits are known; otherwise it is reported, and dropped where the
vocabulary is binding. -/
theorem returns_traitDirective {word token : Token} {rest : List Token}
    {post : Option Directive → State → Prop} (known : Vocabulary.isTrait word.text = true)
    (hfits : gist.Fits node state) (hsees : Sees token rest state)
    (hkind : token.kind = .newline ∨ token.kind = .rightBrace ∨ startsItem token.kind = true)
    (htrait : context.options.traits = true → ∀ features,
      (gist.use .traits).Fits node { state with features := features } →
      post (some (.trait word.text .empty)) { state with features := features })
    (hunknown : context.options.traits = false → ∀ log,
      (gist.report ((Diagnostic.unknownTrait context.options.strict word.text default default
        ).withNote "VR traits are disabled for this parse")).Fits node { state with log := log } →
      post (if context.options.strict then none else some (.generic word.text .empty))
        { state with log := log }) :
    Returns (traitDirective word true) context state post := by
  rw [traitDirective, returns_bind, returns_read, returns_bind]
  apply returns_directiveConfig hsees hkind
  rw [known, Bool.and_true, returns_ite]
  constructor
  · intro htraits
    rw [returns_bind]
    apply hfits.use (by decide)
    intro features hused
    exact returns_pure.mpr (htrait htraits features hused)
  · intro htraits
    rw [returns_bind, reportUnknown, returns_bind, returns_read, known]
    dsimp only
    rw [Bool.true_or, if_pos rfl, if_pos rfl, report, returns_modify, returns_pure]
    apply hunknown (eq_false_of_ne_true htraits)
    have hreported := hfits.report (d := (Diagnostic.unknownTrait context.options.strict word.text
      word.span word.position).withNote "VR traits are disabled for this parse")
    rwa [Diagnostic.unplaced_withNote, Diagnostic.unplaced_unknownTrait] at hreported

/-- An at sign and the name of a trait are read as the trait, or as the directive of its
name. -/
theorem returns_attachDirective {style : Style} {held : Held} {name : String}
    {known : Vocabulary.isTrait name = true} {tokens rest : List Token}
    {post : Node → State → Prop} (hspelt : (Item.trait name known).Spelt style tokens)
    (hbefore : Before (tokens ++ rest) state) (hfits : gist.Fits node state)
    (hends : EndsItem state.braceDepth rest)
    (hpost : ∀ found next, (gist.trait context.options name).Fits found next →
      Goes rest state next → post found next) :
    Returns (do
      match ← directiveWith held true with
      | some placed => attach node placed
      | none => return node) context state post := by
  obtain ⟨mark, word, rfl, hmark, hword, rfl⟩ := hspelt
  have hmarked := hbefore.passes (.of_kind hmark rfl) fun _ => by rw [hmark]; rfl
  have hinside := hmarked.before (by rw [hword]; rfl) hbefore.calm
  have hnamed := hmarked.trans (hinside.passes (.of_kind hword rfl) fun _ => by rw [hword]; rfl)
  have hgoes := Goes.of_passes hnamed hbefore.calm
  have hfits := hfits.of_eq hnamed.log hnamed.features
  obtain ⟨next, others, hvisible, hkind⟩ := hends
  have hsees : Sees next others state.advance.advance := by
    refine ⟨hgoes.ended, ?_⟩
    rw [State.visibleFrom, hgoes.ahead, hgoes.braceDepth]
    exact hvisible
  rw [returns_bind, directiveWith, returns_bind, hbefore.sees.current, returns_bind,
    hbefore.sees.advance, returns_bind, hinside.sees.current, if_pos hword, returns_bind,
    hinside.sees.advance, returns_bind, returns_directiveNamed known]
  by_cases hstate : word.text = "state"
  · rw [Gist.trait, if_pos hstate] at hpost
    rw [if_pos hstate, returns_bind]
    apply returns_directiveConfig hsees hkind
    rw [returns_pure, returns_pure, Option.map_some]
    exact returns_pure.mpr (hpost _ _ (hfits.with_node (hfits.node.attach (.refl _))) hgoes)
  rw [Gist.trait, if_neg hstate] at hpost
  rw [if_neg hstate]
  apply returns_traitDirective known hfits hsees hkind
  · intro htraits features hused
    rw [htraits, if_pos rfl] at hpost
    rw [returns_pure, Option.map_some]
    apply returns_attach_trait (.inl rfl) hused
    intro log hattached
    exact hpost _ _ hattached
      ⟨hgoes.ended, hgoes.ahead, hgoes.braceDepth, hgoes.nesting, hgoes.calm⟩
  · intro htraits log hreported
    rw [htraits, if_neg Bool.false_ne_true] at hpost
    dsimp only at hpost
    rw [returns_pure]
    cases hstrict : context.options.strict with
    | true =>
        rw [hstrict, if_pos rfl] at hpost
        rw [if_pos rfl, Option.map_none]
        refine returns_pure.mpr (hpost _ _ ?_ ?_)
        · rwa [hstrict] at hreported
        · exact ⟨hgoes.ended, hgoes.ahead, hgoes.braceDepth, hgoes.nesting, hgoes.calm⟩
    | false =>
        rw [hstrict, if_neg Bool.false_ne_true] at hpost
        rw [if_neg Bool.false_ne_true, Option.map_some]
        rw [hstrict] at hreported
        apply returns_attach_trait (.inr rfl) hreported
        intro log hattached
        exact hpost _ _ hattached
          ⟨hgoes.ended, hgoes.ahead, hgoes.braceDepth, hgoes.nesting, hgoes.calm⟩

end

end Outline

end SceneLang
