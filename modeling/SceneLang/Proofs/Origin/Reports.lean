import SceneLang.Proofs.Shelter.Dwelling

/-!
# Where reports stem from

Whatever a parse reports is about tokens that it has looked at: its place is that of a token, of a
directive with its mark, or the place behind the token read last.  A parser that is faithful reports
nothing else, and looks at no tokens but those it was given.
-/

namespace SceneLang
namespace Parser

/-! ## Kinds of reports -/

/-- The position behind the token that was read last, the start of the text if there is none. -/
def endOf (source : List Char) : Option Token → Position
  | none => .start
  | some token =>
      ⟨token.position.line, token.position.column +
        (Text.slice source token.span.start token.span.stop).length⟩

/-- The offset behind the token that was read last. -/
def offsetBehind (previous : Option Token) : Nat :=
  ((previous.map Token.span).getD (.point 0)).stop

/-- The place of a token, or of the mark and the name of a directive. -/
inductive Site (tokens : List Token) : Span → Position → Prop
  | token {token : Token} (h : token ∈ tokens) : Site tokens token.span token.position
  | directive {mark name : Token} (hmark : mark ∈ tokens) (hname : name ∈ tokens)
      (hbehind : mark = name ∨ [mark, name].Sublist tokens) :
      Site tokens (mark.span.merge name.span) mark.position

/-- The reports that can be made of the tokens of a text. -/
inductive Stems (source : List Char) (tokens : List Token) : Diagnostic → Prop
  | plain {span : Span} {position : Position} (severity : Severity) (code : Code)
      (message : String) (h : Site tokens span position) :
      Stems source tokens (.plain severity code span position message)
  | error {token : Token} (code : Code) (message : String) (h : token ∈ tokens) :
      Stems source tokens (((Diagnostic.error code token.span token.position message
        ).withLabel token.span "here").withHelp code.advice?)
  | unterminated {token : Token} (quote : Char) (h : token ∈ tokens) :
      Stems source tokens (.missingQuote quote token.span token.position)
  | unclosed {opening : Token} {previous : Option Token} (h : opening ∈ tokens)
      (hprevious : ∀ token ∈ previous, token ∈ tokens) :
      Stems source tokens ((Diagnostic.missingBrace (.point (offsetBehind previous))
        (endOf source previous)).withLabel opening.span "block opened here")
  | openObject {opening last : Token} {previous : Option Token} (h : opening ∈ tokens)
      (hlast : last ∈ tokens) (heof : last.kind = .eof)
      (hprevious : ∀ token ∈ previous, token ∈ tokens) :
      Stems source tokens ((Diagnostic.missingBrace (.point last.span.start)
        (endOf source previous)).withLabel opening.span "object opened here")
  | missingColon {key : Token} (name : String) (h : key ∈ tokens) :
      Stems source tokens (.missingColon name key.span key.position)
  | geometry {place : Token} (value : String) (h : place ∈ tokens) :
      Stems source tokens (.unknownGeometry value place.span place.position)
  | misspelled {key : Token} {d : Diagnostic} (h : key ∈ tokens)
      (hd : Diagnostic.misspelledProperty? key.text key.span key.position = some d) :
      Stems source tokens d
  | keyword {token : Token} (strict : Bool) (h : token ∈ tokens) :
      Stems source tokens (.unknownKeyword strict token.text token.span token.position)
  | trait {name : Token} (strict : Bool) (h : name ∈ tokens) :
      Stems source tokens (.unknownTrait strict name.text name.span name.position)
  | directive {name : Token} (strict : Bool) (h : name ∈ tokens) :
      Stems source tokens (.unknownDirective strict name.text name.span name.position)
  | noted {d : Diagnostic} (note : String) (h : Stems source tokens d) :
      Stems source tokens (d.withNote note)

/-! ## Faithful parsers -/

variable {source : List Char} {tokens : List Token}

/-- The tokens ahead are the last ones of those given, and what the reports of the state stem from
is among them. -/
structure Honest (source : List Char) (tokens : List Token) (state : State) : Prop where
  ahead : state.ahead <:+ tokens
  previous : ∀ token ∈ state.previous, token ∈ tokens
  errors : ∀ d ∈ state.log.errors, Stems source tokens d
  warnings : ∀ d ∈ state.log.warnings, Stems source tokens d

namespace Honest

variable {state : State}

theorem visibleFrom (h : Honest source tokens state) (n : Nat) :
    state.visibleFrom n <:+ tokens := by
  have hvisible (others : List Token) : visible state.braceDepth others <:+ others := by
    obtain ⟨hidden, hsplit, -⟩ := visible_append state.braceDepth others
    exact ⟨hidden, hsplit.symm⟩
  have hbehind (others : List Token) : behind others <:+ others := by
    unfold behind
    split
    · exact List.suffix_cons _ _
    · exact List.suffix_refl _
  induction n with
  | zero => exact (hvisible _).trans h.ahead
  | succ n ih => exact ((hvisible _).trans (hbehind _)).trans ih

theorem advance (h : Honest source tokens state) : Honest source tokens state.advance := by
  have hvisible := h.visibleFrom 0
  unfold State.advance
  split
  · exact h
  next token rest heq =>
    rw [heq] at hvisible
    split
    · exact h
    · refine ⟨(List.suffix_cons token rest).trans hvisible, ?_, h.errors, h.warnings⟩
      intro other hmem
      dsimp only at hmem
      split at hmem
      · exact h.previous other hmem
      · exact Option.some.inj hmem ▸ hvisible.mem List.mem_cons_self

/-- The token behind the current one stands right behind it, but for layout. -/
theorem advance_split {mark name : Token} {rest rest' : List Token}
    (h : Honest source tokens state) (hmark : state.visibleFrom 0 = mark :: rest)
    (hname : state.advance.visibleFrom 0 = name :: rest') (heof : mark.kind ≠ .eof) :
    ∃ front gap, tokens = front ++ mark :: (gap ++ name :: rest') ∧
      ∀ token ∈ gap, token.kind.isLayout = true := by
  rw [State.advance_of_visible hmark heof, State.visibleFrom] at hname
  obtain ⟨gap, hsplit, hgap⟩ := visible_append (depthAfter state.braceDepth mark.kind) rest
  obtain ⟨front, htokens⟩ := h.visibleFrom 0
  rw [hmark, hsplit, hname] at htokens
  exact ⟨front, gap, htokens.symm, hgap⟩

/-- The token behind the current one comes later on, unless that one is at the end. -/
theorem advance_sublist {mark name : Token} {rest rest' : List Token}
    (h : Honest source tokens state) (hmark : state.visibleFrom 0 = mark :: rest)
    (hname : state.advance.visibleFrom 0 = name :: rest') :
    mark = name ∨ [mark, name].Sublist tokens := by
  by_cases heof : mark.kind = .eof
  · rw [← State.token_of_visible hmark] at heof
    rw [advance_of_eof heof, hmark] at hname
    exact .inl (List.cons.inj hname).1
  · obtain ⟨front, gap, rfl, -⟩ := h.advance_split hmark hname heof
    have hbehind : [name].Sublist (gap ++ name :: rest') :=
      List.singleton_sublist.mpr (List.mem_append_right gap List.mem_cons_self)
    exact .inr ((List.cons_sublist_cons.mpr hbehind).trans (List.sublist_append_right _ _))

theorem push (h : Honest source tokens state) {d : Diagnostic} (hd : Stems source tokens d) :
    Honest source tokens { state with log := state.log.push d } := by
  have happend {ds : List Diagnostic} (hds : ∀ other ∈ ds, Stems source tokens other) :
      ∀ other ∈ ds ++ [d], Stems source tokens other := by
    intro other hmem
    obtain hmem | hmem := List.mem_append.mp hmem
    · exact hds other hmem
    · exact List.mem_singleton.mp hmem ▸ hd
  refine ⟨h.ahead, h.previous, ?_, ?_⟩
  · dsimp only [Log.push]
    split
    · split
      · exact happend h.errors
      · exact h.errors
    · split <;> exact h.errors
  · dsimp only [Log.push]
    split
    · split <;> exact h.warnings
    · split
      · exact happend h.warnings
      · exact h.warnings

end Honest

section

variable {α β : Type} {p : Parser α} {f : α → Parser β} {made weaker : α → Prop} {made' : β → Prop}

/-- From honest states the parser comes to honest states, and its results are as said. -/
def Tells (source : List Char) (tokens : List Token) (p : Parser α) (made : α → Prop) : Prop :=
  ∀ options state, Honest source tokens state →
    Leads p ⟨source, options⟩ state fun value next => Honest source tokens next ∧ made value

abbrev Faithful (source : List Char) (tokens : List Token) (p : Parser α) : Prop :=
  Tells source tokens p fun _ => True

theorem Tells.mono (h : Tells source tokens p made) (himp : ∀ value, made value → weaker value) :
    Tells source tokens p weaker :=
  fun options state hstate => (h options state hstate).mono fun value _ hnext =>
    ⟨hnext.1, himp value hnext.2⟩

theorem Tells.faithful (h : Tells source tokens p made) : Faithful source tokens p :=
  h.mono fun _ _ => trivial

theorem Tells.pure {value : α} (h : made value) : Tells source tokens (pure value) made :=
  fun _ _ hstate => leads_pure ⟨hstate, h⟩

theorem Tells.bind (hp : Tells source tokens p made)
    (hf : ∀ value, made value → Tells source tokens (f value) made') :
    Tells source tokens (p >>= f) made' :=
  fun options state hstate => (hp options state hstate).bind fun value next hnext =>
    hf value hnext.2 options next hnext.1

theorem Faithful.bind (hp : Faithful source tokens p)
    (hf : ∀ value, Tells source tokens (f value) made') :
    Tells source tokens (p >>= f) made' :=
  Tells.bind hp fun value _ => hf value

theorem Tells.ite {c : Prop} [Decidable c] {q : Parser α} (hp : Tells source tokens p made)
    (hq : Tells source tokens q made) : Tells source tokens (if c then p else q) made :=
  fun options state hstate =>
    .ite (fun _ => hp options state hstate) fun _ => hq options state hstate

theorem Tells.throw {fault : Fault} : Tells source tokens (throw fault) made :=
  fun _ _ _ => leads_throw

/-- What a turn of a loop makes. -/
def OfTurn (made : β → Prop) : ForInStep β → Prop
  | .done value | .yield value => made value

theorem Tells.iterate {step : β → Parser (ForInStep β)} {start : β} (hstart : made' start)
    (hturn : ∀ value, made' value → Tells source tokens (step value) (OfTurn made')) :
    Tells source tokens (iterate start step) made' := by
  intro options state hstate
  refine Leads.iterate (fun value next => Honest source tokens next ∧ made' value)
    ⟨hstate, hstart⟩ fun value next hnext => ?_
  refine (hturn value hnext.2 options next hnext.1).mono fun result last hlast => ?_
  cases result with
  | done value => exact hlast
  | yield value => exact hlast

theorem faithful_iterate {step : β → Parser (ForInStep β)} {start : β}
    (hturn : ∀ value, Faithful source tokens (step value)) :
    Faithful source tokens (iterate start step) := by
  refine Tells.iterate trivial fun value _ => (hturn value).mono fun result _ => ?_
  cases result <;> trivial

/-! ## Steps -/

/-- What a parser is known to return to is what it leads to. -/
theorem Tells.of_returns (h : ∀ options state, Honest source tokens state →
    Returns p ⟨source, options⟩ state fun value next => Honest source tokens next ∧ made value) :
    Tells source tokens p made :=
  fun options state hstate => (h options state hstate).leads

theorem tells_get : Tells source tokens get (Honest source tokens) :=
  .of_returns fun _ _ hstate => returns_get.mpr ⟨hstate, hstate⟩

theorem tells_read : Tells source tokens read fun context => context.source = source :=
  .of_returns fun _ _ hstate => returns_read.mpr ⟨hstate, rfl⟩

theorem faithful_modify {g : State → State}
    (h : ∀ state, Honest source tokens state → Honest source tokens (g state)) :
    Faithful source tokens (modify g : Parser Unit) :=
  .of_returns fun _ state hstate => returns_modify.mpr ⟨h state hstate, trivial⟩

theorem tells_peek (n : Nat) : Tells source tokens (peek n) (· ∈ tokens) := by
  apply tells_get.bind
  intro state hstate
  split
  next token rest heq =>
    exact .pure ((hstate.visibleFrom n).mem (heq ▸ List.mem_cons_self))
  next => exact .throw

theorem tells_current : Tells source tokens current (· ∈ tokens) :=
  tells_peek 0

theorem faithful_peekKind (n : Nat) : Faithful source tokens (peekKind n) :=
  (tells_peek n).bind fun _ _ => .pure trivial

theorem faithful_currentKind : Faithful source tokens currentKind :=
  tells_current.bind fun _ _ => .pure trivial

theorem faithful_check (kind : TokenKind) : Faithful source tokens (check kind) :=
  faithful_currentKind.bind fun _ => .pure trivial

theorem faithful_advance : Faithful source tokens advance :=
  tells_current.bind fun _ _ => faithful_modify fun _ hstate => hstate.advance

theorem leads_token {context : Context} {state : State} :
    Leads Parser.current context state fun token next =>
      next = state ∧ ∃ rest, state.visibleFrom 0 = token :: rest := by
  have hget : Returns get context state fun value next => value = state ∧ next = state :=
    returns_get.mpr ⟨rfl, rfl⟩
  refine hget.leads.bind ?_
  rintro _ _ ⟨rfl, rfl⟩
  split
  next token rest heq => exact leads_pure ⟨rfl, rest, heq⟩
  next => exact leads_throw

theorem leads_step {context : Context} {state : State} :
    Leads advance context state fun _ next => next = state.advance := by
  refine leads_token.bind ?_
  rintro _ state ⟨rfl, -⟩
  have hmodify : Returns (modify State.advance) context state fun _ next => next = state.advance :=
    returns_modify.mpr rfl
  exact hmodify.leads

/-- Of two tokens that are looked at one behind the other, the second one comes later. -/
theorem tells_marked {f : Token → Token → Parser α}
    (hf : ∀ mark name, mark ∈ tokens → name ∈ tokens →
      (mark = name ∨ [mark, name].Sublist tokens) → Tells source tokens (f mark name) made) :
    Tells source tokens (do
      let mark ← current
      advance
      let name ← current
      f mark name) made := by
  intro options state hstate
  refine leads_token.bind ?_
  rintro mark state ⟨rfl, rest, hmark⟩
  have hmem : mark ∈ tokens := (hstate.visibleFrom 0).mem (hmark ▸ List.mem_cons_self)
  refine leads_step.bind ?_
  rintro _ _ rfl
  refine leads_token.bind ?_
  rintro name _ ⟨rfl, rest', hname⟩
  have hmem' : name ∈ tokens := (hstate.advance.visibleFrom 0).mem (hname ▸ List.mem_cons_self)
  exact hf mark name hmem hmem' (hstate.advance_sublist hmark hname) options _ hstate.advance

theorem faithful_eat (kind : TokenKind) : Faithful source tokens (eat kind) :=
  (faithful_check kind).bind fun _ =>
    .ite (faithful_advance.bind fun _ => .pure trivial) (.pure trivial)

theorem faithful_lower (count : Nat) : Faithful source tokens (lower count) := by
  cases count with
  | zero => exact .throw
  | succ count => exact .pure trivial

theorem faithful_setValueFailed (failed : Bool) : Faithful source tokens (setValueFailed failed) :=
  faithful_modify fun _ h => ⟨h.ahead, h.previous, h.errors, h.warnings⟩

theorem faithful_valueFailed : Faithful source tokens valueFailed :=
  tells_get.bind fun _ _ => .pure trivial

theorem faithful_use (feature : Feature) : Faithful source tokens (use feature) := by
  refine faithful_modify fun state h => ?_
  split
  · exact h
  · exact ⟨h.ahead, h.previous, h.errors, h.warnings⟩

/-! ## Places -/

theorem faithful_previousSpan : Faithful source tokens previousSpan :=
  tells_get.bind fun _ _ => .pure trivial

theorem faithful_previousLine : Faithful source tokens previousLine :=
  tells_get.bind fun _ _ => .pure trivial

theorem faithful_startPosition : Faithful source tokens startPosition :=
  tells_current.bind fun _ _ => .pure trivial

theorem returns_endPosition {context : Context} {state : State} {post : Position → State → Prop} :
    Returns endPosition context state post ↔ post (endOf context.source state.previous) state := by
  rw [endPosition, returns_bind, returns_get]
  cases state.previous with
  | none => exact returns_pure
  | some token => rw [returns_bind, returns_read, returns_pure, endOf]

theorem faithful_endPosition : Faithful source tokens endPosition :=
  .of_returns fun _ _ hstate => returns_endPosition.mpr ⟨hstate, trivial⟩

theorem faithful_locationFrom (start : Position) :
    Faithful source tokens (locationFrom start) :=
  faithful_endPosition.bind fun _ => .pure trivial

theorem faithful_sliceBetween (start stop : Nat) :
    Faithful source tokens (sliceBetween start stop) :=
  tells_read.bind fun _ _ => .pure trivial

/-! ## Reports -/

theorem faithful_report {d : Diagnostic} (h : Stems source tokens d) :
    Faithful source tokens (report d) :=
  faithful_modify fun _ hstate => hstate.push h

theorem faithful_reportError (code : Code) (message : String) :
    Faithful source tokens (reportError code message) :=
  tells_current.bind fun _ hmem => faithful_report (.error code message hmem)

theorem faithful_unexpected (place : String) : Faithful source tokens (unexpected place) :=
  tells_current.bind fun _ _ => faithful_reportError _ _

theorem faithful_enter : Faithful source tokens enter := by
  refine tells_get.bind fun state _ => .ite ?_ ?_
  · exact (faithful_reportError _ _).bind fun _ => .pure trivial
  · refine Faithful.bind (faithful_modify fun _ h => ?_) fun _ => .pure trivial
    exact ⟨h.ahead, h.previous, h.errors, h.warnings⟩

theorem tells_deeper {refused body : Parser α} (hrefused : Tells source tokens refused made)
    (hbody : Tells source tokens body made) :
    Tells source tokens (deeper refused body) made := by
  refine faithful_enter.bind fun entered => .ite (hbody.bind fun value hvalue => ?_) hrefused
  refine Faithful.bind (faithful_modify fun _ h => ?_) fun _ => .pure hvalue
  exact ⟨h.ahead, h.previous, h.errors, h.warnings⟩

theorem faithful_reportUnterminated {token : Token} (h : token ∈ tokens) :
    Faithful source tokens (reportUnterminated token) :=
  tells_read.bind fun _ _ => faithful_report (.unterminated _ h)

theorem faithful_reportUnclosed {opening : Token} (h : opening ∈ tokens) :
    Faithful source tokens (reportUnclosed opening) := by
  refine .of_returns fun options state hstate => ?_
  rw [reportUnclosed, previousSpan, returns_bind, returns_bind, returns_get, returns_pure,
    returns_bind, returns_endPosition, report, returns_modify]
  exact ⟨hstate.push (.unclosed h hstate.previous), trivial⟩

end

end Parser
end SceneLang
