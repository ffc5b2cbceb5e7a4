import SceneLang.Parser.Element
import SceneLang.Proofs.Parser.Cursor
import SceneLang.Proofs.Parser.Returns
import SceneLang.Proofs.Shift.Trees

/-!
# Parses that follow each other

Two parses are alike if the one is the other further down: the same tokens are ahead in other
places, with the same braces open around them.  A parser follows another if it leads from alike
states to alike states, and to a result that is the result of the other further down, whenever
the other one comes to a result.

What a parser sees further down is what it sees in the other text, moved; what it cuts out of
its source is the same text.  Steps and notes lead from alike states to alike states.
-/

namespace SceneLang

open Movable (move)
open Fixed (move_eq)

/-- Options under which a text reads the same; how many diagnostics are kept may differ. -/
structure ParseOptions.ReadsAs (options other : ParseOptions) : Prop where
  traits : options.traits = other.traits
  imports : options.imports = other.imports
  strict : options.strict = other.strict

theorem ParseOptions.ReadsAs.of_eq {options other : ParseOptions} (h : options = other) :
    options.ReadsAs other := by
  subst h
  exact ⟨rfl, rfl, rfl⟩

namespace Parser

/-! ## Alike states -/

/-- What a parse has noted down. -/
structure Notes where
  log : Log
  expressions : Table String
  imports : List ImportDecl
  features : List Feature

def State.notes (state : State) : Notes :=
  ⟨state.log, state.expressions, state.imports, state.features⟩

/-- How far apart two parses are, and how what they note down compares; they may differ in what
they noted down before. -/
structure Bond where
  shift : Shift
  alike : Notes → Notes → Prop
  report {a b : Notes} (d : Diagnostic) (h : alike a b) :
    alike { a with log := a.log.push (move shift d) } { b with log := b.log.push d }
  use {a b : Notes} (feature : Feature) (h : alike a b) :
    alike
      { a with features :=
          if a.features.contains feature then a.features else feature :: a.features }
      { b with features :=
          if b.features.contains feature then b.features else feature :: b.features }
  interpolation {a b : Notes} (number : Nat) (text : String) (h : alike a b) :
    alike
      { a with expressions :=
          a.expressions.insert (interpolationName (number + shift.ids)) text }
      { b with expressions := b.expressions.insert (interpolationName number) text }
  imports {a b : Notes} (decl : ImportDecl) (h : alike a b) :
    alike { a with imports := a.imports ++ [decl] } { b with imports := b.imports ++ [decl] }

/-- The interpolations of a table are numbered without gaps. -/
def Numbered (expressions : Table String) : Prop :=
  ∀ number, expressions.length ≤ number →
    Table.find? (interpolationName number) expressions = none

/-- Has a parse read anything yet?  If it need not have, what it reads first is no layout, and
is not the end. -/
inductive Stage where
  | opening
  | within
deriving DecidableEq

/-- The first state is the second one further down. -/
structure Alike (bond : Bond) (stage : Stage) (context other : Context) (state back : State) :
    Prop where
  options : context.options.ReadsAs other.options
  source : ∃ front, context.source = front ++ other.source ∧
    Text.byteLength front = bond.shift.bytes
  ahead : state.ahead = move bond.shift back.ahead
  previous :
    (∃ token, back.previous = some token ∧ state.previous = some (move bond.shift token)) ∨
      stage = .opening ∧ ∃ token rest, back.visibleFrom 0 = token :: rest ∧
        token.kind.isLayout = false ∧ token.kind ≠ .eof
  braceDepth : state.braceDepth = back.braceDepth
  nesting : state.nesting = back.nesting
  valueFailed : state.valueFailed = back.valueFailed
  number : state.expressions.length = back.expressions.length + bond.shift.ids
  numbered : Numbered state.expressions
  numberedBack : Numbered back.expressions
  notes : bond.alike state.notes back.notes

variable {α β : Type} {bond : Bond} {i j k : Stage}

section

/-- Where the second parser comes to a result from a state, the first one comes from the state
further down to a result that has to do with it, and to a state further down. -/
def FollowsBy (bond : Bond) (i j : Stage) (R : α → α → Prop) (p q : Parser α) : Prop :=
  ∀ ⦃context other state back⦄, Alike bond i context other state back →
    ∀ ⦃post : α → State → Prop⦄, Returns q other back post →
      Returns p context state fun value next => ∃ value' next',
        post value' next' ∧ R value value' ∧ Alike bond j context other next next'

/-- The result is the same further down. -/
abbrev Follows [Movable α] (bond : Bond) (i j : Stage) (p q : Parser α) : Prop :=
  FollowsBy bond i j (fun value value' => value = move bond.shift value') p q

/-- What a turn of a loop comes to, where values of the loop have to do with each other. -/
inductive StepBy (R : β → β → Prop) : ForInStep β → ForInStep β → Prop
  | done {value value' : β} (h : R value value') : StepBy R (.done value) (.done value')
  | yield {value value' : β} (h : R value value') : StepBy R (.yield value) (.yield value')

namespace FollowsBy

variable {p q : Parser α} {f g : α → Parser β} {R : α → α → Prop} {S : β → β → Prop}

theorem pure {value value' : α} (h : R value value') :
    FollowsBy bond i i R (pure value) (pure value') := by
  intro context other state back halike post hpost
  rw [returns_pure] at hpost ⊢
  exact ⟨value', back, hpost, h, halike⟩

theorem throw (p : Parser α) (fault : Fault) : FollowsBy bond i j R p (throw fault) := by
  rintro _ _ _ _ _ _ ⟨_, _, hrun, _⟩
  cases hrun

theorem bindBy (hp : FollowsBy bond i j R p q)
    (hf : ∀ value value', R value value' → FollowsBy bond j k S (f value) (g value')) :
    FollowsBy bond i k S (p >>= f) (q >>= g) := by
  intro context other state back halike post hpost
  rw [returns_bind] at hpost ⊢
  apply (hp halike hpost).mono
  rintro value next ⟨value', next', hnext, hvalue, halike'⟩
  exact hf value value' hvalue halike' hnext

theorem bind [Movable α] (hp : Follows bond i j p q)
    (hf : ∀ value, FollowsBy bond j k S (f (move bond.shift value)) (g value)) :
    FollowsBy bond i k S (p >>= f) (q >>= g) :=
  hp.bindBy fun _ value' hvalue => hvalue ▸ hf value'

/-- A result that looks the same further down is handed on as it is. -/
theorem andThen [Movable α] [Fixed α] (hp : Follows bond i j p q)
    (hf : ∀ value, FollowsBy bond j k S (f value) (g value)) :
    FollowsBy bond i k S (p >>= f) (q >>= g) := by
  refine bind hp fun value => ?_
  rw [move_eq]
  exact hf value

theorem ite {c d : Prop} [Decidable c] [Decidable d] {p' q' : Parser α} (hcd : c ↔ d)
    (hp : d → FollowsBy bond i j R p q) (hq : ¬d → FollowsBy bond i j R p' q') :
    FollowsBy bond i j R (if c then p else p') (if d then q else q') := by
  by_cases h : d
  · rw [if_pos h, if_pos (hcd.mpr h)]
    exact hp h
  · rw [if_neg h, if_neg (fun hc => h (hcd.mp hc))]
    exact hq h

/-- A loop follows another if each turn does. -/
theorem iterateBy {step step' : β → Parser (ForInStep β)} {start start' : β}
    (hstart : S start start')
    (hturn : ∀ value value', S value value' →
      FollowsBy bond i i (StepBy S) (step value) (step' value')) :
    FollowsBy bond i i S (Parser.iterate start step) (Parser.iterate start' step') := by
  intro context other state back halike post hpost
  induction hlength : back.ahead.length using Nat.strongRecOn generalizing start start' state back
  case ind n ih =>
  rw [returns_iterate] at hpost ⊢
  apply (hturn start start' hstart halike hpost).mono
  rintro result next ⟨result', next', hnext, hresult, halike'⟩
  cases hresult with
  | done hvalue => exact ⟨_, next', hnext, hvalue, halike'⟩
  | yield hvalue =>
      obtain ⟨hshorter, hrest⟩ := hnext
      refine ⟨?_, ih next'.ahead.length (hlength ▸ hshorter) hvalue halike' hrest rfl⟩
      rw [halike.ahead, halike'.ahead]
      simpa [move] using hshorter

theorem iterate [Movable β] {step step' : β → Parser (ForInStep β)} {start start' : β}
    (hstart : start = move bond.shift start')
    (hturn : ∀ value, Follows bond i i (step (move bond.shift value)) (step' value)) :
    Follows bond i i (Parser.iterate start step) (Parser.iterate start' step') := by
  refine iterateBy hstart ?_
  rintro _ value rfl context other state back halike post hpost
  apply (hturn value halike hpost).mono
  rintro _ next ⟨result, next', hnext, rfl, halike'⟩
  refine ⟨result, next', hnext, ?_, halike'⟩
  cases result with
  | done value => exact .done rfl
  | yield value => exact .yield rfl

end FollowsBy

end

end Parser

/-! ## Texts behind other texts -/

namespace Text

theorem after?_append (front back : List Char) (offset : Nat) :
    after? (offset + byteLength front) (front ++ back) = after? offset back := by
  induction front generalizing offset with
  | nil => rfl
  | cons c rest ih =>
      have hsize := Char.utf8Size_pos c
      obtain ⟨sum, hsum⟩ : ∃ sum, offset + byteLength (c :: rest) = sum + 1 :=
        ⟨offset + byteLength (c :: rest) - 1, by simp only [byteLength_cons]; omega⟩
      rw [byteLength_cons] at hsum
      rw [byteLength_cons, hsum, List.cons_append, after?, if_pos (by omega), ← ih]
      congr 1
      omega

theorem slice_append (front back : List Char) (start stop : Nat) :
    slice (front ++ back) (start + byteLength front) (stop + byteLength front) =
      slice back start stop := by
  unfold slice slice?
  rw [after?_append, Nat.add_sub_add_right]
  simp only [Nat.add_le_add_iff_right]

end Text

namespace Parser

variable {α β : Type} {bond : Bond} {i j k : Stage} {shift : Shift}

/-! ## Tokens -/

@[simp] theorem kind_move (token : Token) : (move shift token).kind = token.kind := rfl

@[simp] theorem text_move (token : Token) : (move shift token).text = token.text := rfl

@[simp] theorem span_move (token : Token) :
    (move shift token).span = move shift token.span := rfl

@[simp] theorem position_move (token : Token) :
    (move shift token).position = move shift token.position := rfl

@[simp] theorem line_move (token : Token) :
    (move shift token).line = token.line + shift.lines := rfl

@[simp] theorem isWord_move (token : Token) (word : String) :
    (move shift token).isWord word = token.isWord word := rfl

theorem visible_move (depth : Nat) (tokens : List Token) :
    visible depth (move shift tokens) = move shift (visible depth tokens) := by
  induction tokens using visible.induct depth with
  | case1 token next rest hhidden ih =>
      rw [visible, if_pos hhidden, ← ih]
      exact if_pos hhidden
  | case2 token next rest hshown =>
      rw [visible, if_neg hshown]
      exact if_neg hshown
  | case3 tokens hshort =>
      rcases tokens with _ | ⟨first, _ | ⟨second, rest⟩⟩
      · rfl
      · rfl
      · exact absurd rfl (hshort first second rest)

theorem behind_move (tokens : List Token) :
    behind (move shift tokens) = move shift (behind tokens) := by
  rcases tokens with _ | ⟨first, _ | ⟨second, rest⟩⟩ <;> rfl

namespace Alike

variable {context other : Context} {state back : State}

theorem visibleFrom (h : Alike bond i context other state back) (n : Nat) :
    state.visibleFrom n = move bond.shift (back.visibleFrom n) := by
  induction n with
  | zero => rw [State.visibleFrom, State.visibleFrom, h.ahead, h.braceDepth, visible_move]
  | succ n ih =>
      rw [State.visibleFrom, State.visibleFrom, ih, h.braceDepth, behind_move, visible_move]

theorem slice (h : Alike bond i context other state back) (start stop : Nat) :
    Text.slice context.source (start + bond.shift.bytes) (stop + bond.shift.bytes) =
      Text.slice other.source start stop := by
  obtain ⟨front, hsource, hfront⟩ := h.source
  rw [hsource, ← hfront, Text.slice_append]

theorem byteLength (h : Alike bond i context other state back) :
    Text.byteLength context.source = Text.byteLength other.source + bond.shift.bytes := by
  obtain ⟨front, hsource, hfront⟩ := h.source
  rw [hsource, ← hfront, Text.byteLength_append, Nat.add_comm]

/-- The token just read is known behind every token but layout. -/
theorem previous_advance (h : Alike bond i context other state back) {token : Token}
    {rest : List Token} (hvisible : back.visibleFrom 0 = token :: rest) :
    ∃ last,
      (if token.kind.isLayout then back.previous else some token) = some last ∧
      (if token.kind.isLayout then state.previous else some (move bond.shift token)) =
        some (move bond.shift last) := by
  by_cases hlayout : token.kind.isLayout = true
  · rw [if_pos hlayout, if_pos hlayout]
    obtain hknown | ⟨_, first, others, hfirst, hplain, _⟩ := h.previous
    · exact hknown
    · rw [hvisible] at hfirst
      cases hfirst
      rw [hplain] at hlayout
      contradiction
  · rw [if_neg hlayout, if_neg hlayout]
    exact ⟨token, rfl, rfl⟩

/-- Where there is nothing to be read, something has been read before. -/
theorem within_of_end (h : Alike bond i context other state back)
    (hend : ∀ token rest, back.visibleFrom 0 = token :: rest → token.kind = .eof) :
    Alike bond .within context other state back := by
  obtain hknown | ⟨_, token, rest, hvisible, _, heof⟩ := h.previous
  · exact { h with previous := .inl hknown }
  · exact absurd (hend token rest hvisible) heof

theorem previous_known (h : Alike bond .within context other state back) :
    ∃ token, back.previous = some token ∧ state.previous = some (move bond.shift token) := by
  obtain hknown | ⟨hstage, _⟩ := h.previous
  · exact hknown
  · cases hstage

theorem of_within (h : Alike bond .within context other state back) :
    Alike bond i context other state back :=
  { h with previous := .inl h.previous_known }

theorem advance (h : Alike bond i context other state back) :
    Alike bond .within context other state.advance back.advance := by
  have hmoved := h.visibleFrom 0
  cases hvisible : back.visibleFrom 0 with
  | nil =>
      rw [hvisible] at hmoved
      have hback : back.advance = back := by rw [State.advance, hvisible]
      have hstate : state.advance = state := by
        rw [State.advance, hmoved]
        rfl
      rw [hback, hstate]
      exact h.within_of_end (by simp [hvisible])
  | cons token rest =>
      rw [hvisible] at hmoved
      have hmoved : state.visibleFrom 0 = move bond.shift token :: move bond.shift rest := hmoved
      by_cases heof : token.kind = .eof
      · have hstate : state.advance = state :=
          advance_of_eof (by rwa [State.token_of_visible hmoved])
        have hback : back.advance = back :=
          advance_of_eof (by rwa [State.token_of_visible hvisible])
        rw [hstate, hback]
        refine h.within_of_end fun first others hfirst => ?_
        rw [hvisible] at hfirst
        cases hfirst
        exact heof
      · rw [State.advance_of_visible hvisible heof, State.advance_of_visible hmoved heof]
        exact { h with
          ahead := rfl
          previous := .inl (h.previous_advance hvisible)
          braceDepth := congrArg (depthAfter · token.kind) h.braceDepth }

end Alike

theorem follows_peek (n : Nat) : Follows bond i i (peek n) (peek n) := by
  intro context other state back halike post hpost
  rw [peek, returns_bind, returns_get] at hpost ⊢
  rw [halike.visibleFrom]
  cases hvisible : back.visibleFrom n with
  | nil =>
      rw [hvisible] at hpost
      obtain ⟨_, _, hrun, _⟩ := hpost
      contradiction
  | cons token rest =>
      rw [hvisible] at hpost
      exact returns_pure.mpr ⟨token, back, returns_pure.mp hpost, rfl, halike⟩

theorem follows_current : Follows bond i i current current :=
  follows_peek 0

theorem follows_peekKind (n : Nat) : Follows bond i i (peekKind n) (peekKind n) :=
  (follows_peek n).bind fun _ => .pure rfl

theorem follows_currentKind : Follows bond i i currentKind currentKind :=
  follows_current.bind fun _ => .pure rfl

theorem follows_check (kind : TokenKind) : Follows bond i i (check kind) (check kind) :=
  follows_currentKind.andThen fun _ => .pure rfl

theorem follows_advance : Follows bond i .within advance advance := by
  intro context other state back halike post hpost
  rw [advance, returns_bind] at hpost ⊢
  apply (follows_current halike hpost).mono
  rintro token next ⟨token', next', hnext, rfl, halike'⟩
  rw [returns_modify] at hnext ⊢
  exact ⟨(), _, hnext, rfl, halike'.advance⟩

theorem follows_eat (kind : TokenKind) : Follows bond .within .within (eat kind) (eat kind) := by
  refine (follows_check kind).andThen fun found => .ite Iff.rfl (fun _ => ?_) fun _ => .pure rfl
  exact follows_advance.andThen fun _ => .pure rfl

/-! ## Places -/

theorem follows_previousSpan : Follows bond .within .within previousSpan previousSpan := by
  intro context other state back halike post hpost
  obtain ⟨token, hback, hstate⟩ := halike.previous_known
  rw [previousSpan, returns_bind, returns_get, returns_pure] at hpost ⊢
  refine ⟨_, back, hpost, ?_, halike⟩
  rw [hback, hstate]
  rfl

/-- The line of the token just read is as much further down as the text is. -/
theorem FollowsBy.previousLine {R : α → α → Prop} {f g : Nat → Parser α}
    (hf : ∀ line, FollowsBy bond .within k R (f (line + bond.shift.lines)) (g line)) :
    FollowsBy bond .within k R (Parser.previousLine >>= f) (Parser.previousLine >>= g) := by
  intro context other state back halike post hpost
  obtain ⟨token, hback, hstate⟩ := halike.previous_known
  rw [returns_bind, Parser.previousLine, returns_bind, returns_get, returns_pure] at hpost ⊢
  rw [hback] at hpost
  rw [hstate]
  exact hf token.line halike hpost

theorem follows_startPosition : Follows bond i i startPosition startPosition :=
  follows_current.bind fun _ => .pure rfl

theorem follows_endPosition : Follows bond .within .within endPosition endPosition := by
  intro context other state back halike post hpost
  obtain ⟨token, hback, hstate⟩ := halike.previous_known
  rw [endPosition, returns_bind, returns_get] at hpost ⊢
  rw [hback] at hpost
  rw [hstate]
  dsimp only at hpost ⊢
  rw [returns_bind, returns_read, returns_pure] at hpost ⊢
  refine ⟨_, back, hpost, ?_, halike⟩
  have hslice := halike.slice token.span.start token.span.stop
  rw [← hslice]
  rfl

theorem move_max (p q : Position) :
    move shift (max p q) = max (move shift p) (move shift q) := by
  have hle (p q : Position) : move shift p ≤ move shift q ↔ p ≤ q := by
    simp only [Position.le_def, move]
    omega
  change move shift (if p ≤ q then q else p) =
    if move shift p ≤ move shift q then move shift q else move shift p
  by_cases h : p ≤ q
  · rw [if_pos h, if_pos ((hle p q).mpr h)]
  · rw [if_neg h, if_neg (fun hmoved => h ((hle p q).mp hmoved))]

theorem follows_locationFrom (start : Position) :
    Follows bond .within .within (locationFrom (move bond.shift start)) (locationFrom start) := by
  refine follows_endPosition.bind fun stop => .pure ?_
  rw [← move_max]
  rfl

theorem follows_sliceBetween (start stop : Nat) :
    Follows bond i i (sliceBetween (start + bond.shift.bytes) (stop + bond.shift.bytes))
      (sliceBetween start stop) := by
  intro context other state back halike post hpost
  rw [sliceBetween, returns_bind, returns_read, returns_pure] at hpost ⊢
  refine ⟨_, back, hpost, ?_, halike⟩
  dsimp only
  rw [move_eq, Nat.add_max_add_right, halike.slice]

/-! ## Diagnostics -/

theorem follows_report (d : Diagnostic) :
    Follows bond i i (report (move bond.shift d)) (report d) := by
  intro context other state back halike post hpost
  rw [report, returns_modify] at hpost ⊢
  exact ⟨(), _, hpost, rfl, { halike with notes := bond.report d halike.notes }⟩

/-- Reports of the same thing further down. -/
theorem follows_report_of {d d' : Diagnostic} (h : d = move bond.shift d') :
    Follows bond i i (report d) (report d') :=
  h ▸ follows_report d'

theorem follows_reportError (code : Code) (message : String) :
    Follows bond i i (reportError code message) (reportError code message) := by
  refine follows_current.bind fun token => follows_report_of ?_
  rfl

theorem follows_unexpected (place : String) :
    Follows bond i i (unexpected place) (unexpected place) :=
  follows_current.bind fun _ => follows_reportError _ _

theorem follows_reportUnterminated (token : Token) :
    Follows bond i i (reportUnterminated (move bond.shift token)) (reportUnterminated token) := by
  intro context other state back halike post hpost
  rw [reportUnterminated, returns_bind, returns_read] at hpost ⊢
  refine follows_report_of ?_ halike hpost
  have hslice := halike.slice token.span.start token.span.stop
  rw [← hslice]
  rfl

theorem follows_reportUnclosed (opening : Token) :
    Follows bond .within .within (reportUnclosed (move bond.shift opening))
      (reportUnclosed opening) :=
  follows_previousSpan.bind fun _ => follows_endPosition.bind fun _ => follows_report_of rfl

/-! ## Nesting, failure and features -/

theorem follows_enter : Follows bond i i enter enter := by
  intro context other state back halike post hpost
  rw [enter, returns_bind, returns_get] at hpost ⊢
  rw [halike.nesting]
  refine FollowsBy.ite Iff.rfl (fun _ => ?_) (fun _ => ?_) halike hpost
  · exact (follows_reportError _ _).andThen fun _ => .pure rfl
  · intro context other state back halike post hpost
    rw [returns_bind, returns_modify, returns_pure] at hpost ⊢
    exact ⟨true, _, hpost, rfl, { halike with nesting := congrArg (· + 1) halike.nesting }⟩

theorem follows_leave : Follows bond i i leave leave := by
  intro context other state back halike post hpost
  rw [leave, returns_modify] at hpost ⊢
  exact ⟨(), _, hpost, rfl, { halike with nesting := congrArg (· - 1) halike.nesting }⟩

theorem follows_deeper {R : α → α → Prop} {refused refused' body body' : Parser α}
    (hrefused : FollowsBy bond .within .within R refused refused')
    (hbody : FollowsBy bond .within .within R body body') :
    FollowsBy bond .within .within R (deeper refused body) (deeper refused' body') := by
  refine follows_enter.andThen fun entered => .ite Iff.rfl (fun _ => ?_) fun _ => hrefused
  exact hbody.bindBy fun _ _ hvalue => follows_leave.andThen fun _ => .pure hvalue

theorem follows_valueFailed : Follows bond i i valueFailed valueFailed := by
  intro context other state back halike post hpost
  rw [valueFailed, returns_bind, returns_get, returns_pure] at hpost ⊢
  exact ⟨_, back, hpost, halike.valueFailed, halike⟩

theorem follows_setValueFailed (failed : Bool) :
    Follows bond i i (setValueFailed failed) (setValueFailed failed) := by
  intro context other state back halike post hpost
  rw [setValueFailed, returns_modify] at hpost ⊢
  exact ⟨(), _, hpost, rfl, { halike with valueFailed := rfl }⟩

theorem follows_use (feature : Feature) : Follows bond i i (use feature) (use feature) := by
  intro context other state back halike post hpost
  rw [use, returns_modify] at hpost ⊢
  have huse (state : State) :
      (if state.features.contains feature then state
        else { state with features := feature :: state.features }) =
      { state with features :=
          if state.features.contains feature then state.features
          else feature :: state.features } := by
    split <;> rfl
  rw [huse] at hpost ⊢
  exact ⟨(), _, hpost, rfl, { halike with notes := bond.use feature halike.notes }⟩

/-! ## Skips -/

theorem follows_lower (count : Nat) : Follows bond i i (lower count) (lower count) := by
  cases count with
  | zero =>
      intro context other state back halike post hpost
      obtain ⟨_, _, hrun, _⟩ := hpost
      contradiction
  | succ count => exact .pure rfl

theorem follows_closingTurn (delimiter : Delimiter) (depth : Nat) :
    Follows bond .within .within (closingTurn delimiter depth) (closingTurn delimiter depth) := by
  refine follows_currentKind.andThen fun kind => .ite Iff.rfl (fun _ => .pure rfl) fun _ => ?_
  refine follows_advance.andThen fun _ => .ite Iff.rfl (fun _ => .pure rfl) fun _ => ?_
  refine .ite Iff.rfl (fun _ => ?_) fun _ => .pure rfl
  refine (follows_lower depth).andThen fun depth => .pure ?_
  split <;> rfl

theorem follows_skipToClosing (delimiter : Delimiter) :
    Follows bond .within .within (skipToClosing delimiter) (skipToClosing delimiter) :=
  (FollowsBy.iterate rfl (follows_closingTurn delimiter)).andThen fun _ => .pure rfl

theorem follows_skipBalanced : Follows bond i .within skipBalanced skipBalanced := by
  refine follows_currentKind.andThen fun kind => ?_
  split
  · exact follows_advance.andThen fun _ => .pure rfl
  · exact follows_advance.andThen fun _ => follows_skipToClosing _

theorem follows_skipUntil {test test' : Parser Bool}
    (htest : Follows bond .within .within test test') :
    Follows bond .within .within (skipUntil test) (skipUntil test') := by
  refine .iterate rfl fun _ => htest.andThen fun found => .ite Iff.rfl (fun _ => .pure rfl) ?_
  exact fun _ => follows_skipBalanced.andThen fun _ => .pure rfl

/-- What is read off the state is the same in alike states. -/
theorem FollowsBy.get {R : α → α → Prop} {f g : State → Parser α}
    (hf : ∀ state back, state.braceDepth = back.braceDepth →
      state.ahead.length = back.ahead.length → FollowsBy bond i j R (f state) (g back)) :
    FollowsBy bond i j R (MonadState.get >>= f) (MonadState.get >>= g) := by
  intro context other state back halike post hpost
  rw [returns_bind, returns_get] at hpost ⊢
  refine hf state back halike.braceDepth ?_ halike hpost
  rw [halike.ahead]
  exact List.length_map _

/-- What does not change during a parse is the same, but for what stands before the text. -/
theorem FollowsBy.read {R : α → α → Prop} {f g : Context → Parser α}
    (hf : ∀ context other : Context, context.options.ReadsAs other.options →
      Text.byteLength context.source = Text.byteLength other.source + bond.shift.bytes →
      FollowsBy bond i j R (f context) (g other)) :
    FollowsBy bond i j R (MonadReader.read >>= f) (MonadReader.read >>= g) := by
  intro context other state back halike post hpost
  rw [returns_bind, returns_read] at hpost ⊢
  exact hf context other halike.options halike.byteLength halike hpost

theorem follows_atSafePlace : Follows bond i i atSafePlace atSafePlace := by
  refine follows_current.bind fun token => .get fun state back hdepth _ => .pure ?_
  rw [hdepth]
  rfl

theorem follows_synchronize : Follows bond .within .within synchronize synchronize := by
  refine follows_currentKind.andThen fun kind => .ite Iff.rfl (fun _ => .pure rfl) fun _ => ?_
  exact follows_skipBalanced.andThen fun _ => follows_skipUntil follows_atSafePlace

theorem follows_atListEnd : Follows bond i i atListEnd atListEnd :=
  follows_currentKind.andThen fun _ => .pure rfl

theorem follows_recoverInList : Follows bond .within .within recoverInList recoverInList :=
  follows_skipUntil follows_atListEnd

theorem follows_ifFailed {recover : Parser Unit}
    (hrecover : Follows bond .within .within recover recover) :
    Follows bond .within .within (ifFailed recover) (ifFailed recover) :=
  follows_valueFailed.andThen fun _ => .ite Iff.rfl (fun _ => hrecover) fun _ => .pure rfl

theorem follows_skipValue : Follows bond .within .within skipValue skipValue := by
  refine follows_currentKind.andThen fun kind => .ite Iff.rfl (fun _ => .pure rfl) fun _ => ?_
  exact follows_skipBalanced.andThen fun _ => .pure rfl

end Parser

end SceneLang
