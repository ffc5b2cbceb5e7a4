import SceneLang.Proofs.Margins.Pairs

/-!
# Steps, notes and skips in pairs

What moves the cursor, what is noted down and what is skipped go in pairs.  Places are not
compared, and of a report only whether it is one of an error.
-/

namespace SceneLang

theorem Diagnostic.isError_withCandidates (d : Diagnostic) (render : String → String)
    (candidates : List String) : (d.withCandidates render candidates).isError = d.isError := by
  unfold withCandidates
  induction candidates generalizing d with
  | nil => rfl
  | cons candidate rest ih => exact ih _

/-- The places of two stretches of the texts correspond to each other. -/
def Margins.Spans (margins : Margins) (span span' : Span) : Prop :=
  margins.offset span.start span'.start ∧ margins.offset span.stop span'.stop

/-- Texts that the map does not tell apart once they are trimmed. -/
def Margins.Texts (margins : Margins) (text text' : List Char) : Prop :=
  margins.text (String.ofList (Text.trim text)) = margins.text (String.ofList (Text.trim text'))

theorem Margins.offset_max (margins : Margins) {a a' b b' : Nat} (ha : margins.offset a a')
    (hb : margins.offset b b') : margins.offset (max a b) (max a' b') := by
  have horder := margins.order ha hb
  by_cases h : a ≤ b
  · rwa [Nat.max_eq_right h, Nat.max_eq_right (horder.mp h)]
  · have h' : ¬a' ≤ b' := fun h' => h (horder.mpr h')
    rwa [Nat.max_eq_left (Nat.le_of_not_le h), Nat.max_eq_left (Nat.le_of_not_le h')]

namespace Parser

variable {α β : Type} {margins : Margins} {R : α → α → Prop} {S : β → β → Prop}

/-! ## The cursor -/

theorem pairs_advance : Pairs margins advance advance := by
  intro state twin hpaired post hpost
  obtain ⟨_, _, hvisible, hvisible', _⟩ := hpaired.exists_visible
  rw [advance, returns_bind, current, returns_peek_of_visible hvisible', returns_modify] at hpost
  rw [advance, returns_bind, current, returns_peek_of_visible hvisible, returns_modify]
  exact ⟨(), _, hpost, rfl, hpaired.advance.1, hpaired.advance.2⟩

theorem pairs_eat (kind : TokenKind) : Pairs margins (eat kind) (eat kind) :=
  .check fun _ => .ite Iff.rfl (fun _ => pairs_advance.andThen fun _ => .pure rfl) fun _ =>
    .pure rfl

/-! ## Places -/

theorem pairs_previousSpan : PairsBy margins margins.Spans previousSpan previousSpan := by
  intro state twin hpaired post hpost
  rw [previousSpan, returns_bind, returns_get, returns_pure] at hpost ⊢
  refine ⟨_, twin, hpost, ?_, hpaired, .refl _ _⟩
  obtain ⟨hnone, hnone'⟩ | ⟨token, other, hsome, hsome', htwins, hplain⟩ := hpaired.previous
  · rw [hnone, hnone']
    exact ⟨margins.origin, margins.origin⟩
  · rw [hsome, hsome']
    exact ⟨htwins.start, htwins.stop hplain⟩

theorem pairs_previousLine : Pairs margins previousLine previousLine := by
  intro state twin hpaired post hpost
  rw [previousLine, returns_bind, returns_get, returns_pure] at hpost ⊢
  refine ⟨_, twin, hpost, ?_, hpaired, .refl _ _⟩
  obtain ⟨hnone, hnone'⟩ | ⟨token, other, hsome, hsome', htwins, _⟩ := hpaired.previous
  · rw [hnone, hnone']
  · rw [hsome, hsome']
    exact htwins.line

/-- Places are not compared. -/
def AnyPlace {γ : Type} (_ _ : γ) : Prop := True

theorem pairs_startPosition : PairsBy margins AnyPlace startPosition startPosition :=
  .current fun token other _ => PairsBy.at (.pure trivial) token other

theorem pairs_endPosition : PairsBy margins AnyPlace endPosition endPosition := by
  intro state twin hpaired post hpost
  rw [endPosition, returns_bind, returns_get] at hpost ⊢
  obtain ⟨hnone, hnone'⟩ | ⟨token, other, hsome, hsome', _⟩ := hpaired.previous
  · rw [hnone'] at hpost
    rw [hnone]
    exact Couples.pure trivial hpaired hpost
  · rw [hsome'] at hpost
    rw [hsome]
    dsimp only at hpost ⊢
    rw [returns_bind, returns_read, returns_pure] at hpost ⊢
    exact ⟨_, twin, hpost, trivial, hpaired, .refl _ _⟩

theorem pairs_locationFrom (start start' : Position) :
    PairsBy margins AnyPlace (locationFrom start) (locationFrom start') :=
  pairs_endPosition.bindBy fun _ _ _ => .pure trivial

theorem pairs_sliceBetween {start start' stop stop' : Nat} (hstart : margins.offset start start')
    (hstop : margins.offset stop stop') :
    PairsBy margins margins.Texts (sliceBetween start stop) (sliceBetween start' stop') := by
  intro state twin hpaired post hpost
  rw [sliceBetween, returns_bind, returns_read, returns_pure] at hpost ⊢
  exact ⟨_, twin, hpost, margins.slice hstart (margins.offset_max hstop hstart), hpaired,
    .refl _ _⟩

/-! ## Reports -/

theorem pairs_report {d d' : Diagnostic} (h : d.isError = d'.isError) :
    Pairs margins (report d) (report d') := by
  intro state twin hpaired post hpost
  rw [report, returns_modify] at hpost ⊢
  refine ⟨(), _, hpost, rfl, { hpaired with hasErrors := ?_ }, .inl ⟨rfl, rfl⟩⟩
  dsimp only
  rw [Log.hasErrors_push, Log.hasErrors_push, hpaired.hasErrors, h]

theorem pairs_reportError (code : Code) (message message' : String) :
    Pairs margins (reportError code message) (reportError code message') :=
  .current fun token other _ => by
    refine PairsBy.at (pairs_report ?_) token other
    rfl

theorem pairs_unexpected (place : String) :
    Pairs margins (unexpected place) (unexpected place) :=
  .current fun token other _ => PairsBy.at (pairs_reportError _ _ _) token other

/-- What does not change during a parse is the same but for the texts. -/
theorem PairsBy.read {f g : Context → Parser α}
    (hf : PairsBy margins R (f ⟨margins.here, margins.options⟩)
      (g ⟨margins.there, margins.options⟩)) :
    PairsBy margins R (MonadReader.read >>= f) (MonadReader.read >>= g) :=
  fun _ _ hpaired => .look (fun _ => returns_read) (fun _ => returns_read) (hf hpaired)

theorem pairs_reportUnterminated (token other : Token) :
    Pairs margins (reportUnterminated token) (reportUnterminated other) :=
  .read (pairs_report rfl)

theorem pairs_reportUnclosed (opening opening' : Token) :
    Pairs margins (reportUnclosed opening) (reportUnclosed opening') :=
  pairs_previousSpan.bindBy fun _ _ _ => pairs_endPosition.bindBy fun _ _ _ => pairs_report rfl

/-! ## Nesting, failure and features -/

theorem pairs_enter : Pairs margins enter enter := by
  intro state twin hpaired post hpost
  rw [enter, returns_bind, returns_get] at hpost ⊢
  rw [hpaired.nesting]
  refine PairsBy.ite Iff.rfl (fun _ => ?_) (fun _ => ?_) hpaired hpost
  · exact (pairs_reportError _ _ _).andThen fun _ => .pure rfl
  · intro state twin hpaired post hpost
    rw [returns_bind, returns_modify, returns_pure] at hpost ⊢
    exact ⟨true, _, hpost, rfl, { hpaired with nesting := congrArg (· + 1) hpaired.nesting },
      .inl ⟨rfl, rfl⟩⟩

theorem pairs_leave : Pairs margins leave leave := by
  intro state twin hpaired post hpost
  rw [leave, returns_modify] at hpost ⊢
  exact ⟨(), _, hpost, rfl, { hpaired with nesting := congrArg (· - 1) hpaired.nesting },
    .inl ⟨rfl, rfl⟩⟩

theorem pairs_deeper {refused refused' body body' : Parser α}
    (hrefused : PairsBy margins R refused refused') (hbody : PairsBy margins R body body') :
    PairsBy margins R (deeper refused body) (deeper refused' body') := by
  refine pairs_enter.andThen fun entered => .ite Iff.rfl (fun _ => ?_) fun _ => hrefused
  exact hbody.bindBy fun _ _ hvalue => pairs_leave.andThen fun _ => .pure hvalue

theorem pairs_valueFailed : Pairs margins valueFailed valueFailed := by
  intro state twin hpaired post hpost
  rw [valueFailed, returns_bind, returns_get, returns_pure] at hpost ⊢
  exact ⟨_, twin, hpost, hpaired.valueFailed, hpaired, .refl _ _⟩

theorem pairs_setValueFailed (failed : Bool) :
    Pairs margins (setValueFailed failed) (setValueFailed failed) := by
  intro state twin hpaired post hpost
  rw [setValueFailed, returns_modify] at hpost ⊢
  exact ⟨(), _, hpost, rfl, { hpaired with valueFailed := rfl }, .inl ⟨rfl, rfl⟩⟩

theorem pairs_use (feature : Feature) : Pairs margins (use feature) (use feature) := by
  intro state twin hpaired post hpost
  rw [use, returns_modify] at hpost ⊢
  have huse (state : State) :
      (if state.features.contains feature then state
        else { state with features := feature :: state.features }) =
      { state with features :=
          if state.features.contains feature then state.features
          else feature :: state.features } := by
    split <;> rfl
  rw [huse] at hpost ⊢
  refine ⟨(), _, hpost, rfl, { hpaired with features := ?_ }, .inl ⟨rfl, rfl⟩⟩
  dsimp only
  rw [hpaired.features]

/-! ## Skips -/

theorem pairs_lower (count : Nat) : Pairs margins (lower count) (lower count) := by
  cases count with
  | zero =>
      rintro _ _ _ _ ⟨_, _, hrun, _⟩
      contradiction
  | succ count => exact .pure rfl

theorem pairs_closingTurn (delimiter : Delimiter) (depth : Nat) :
    Pairs margins (closingTurn delimiter depth) (closingTurn delimiter depth) := by
  refine .currentKind fun token other _ => PairsBy.at ?_ token other
  refine .ite Iff.rfl (fun _ => .pure rfl) fun _ => ?_
  refine pairs_advance.andThen fun _ => .ite Iff.rfl (fun _ => .pure rfl) fun _ => ?_
  refine .ite Iff.rfl (fun _ => ?_) fun _ => .pure rfl
  exact (pairs_lower depth).andThen fun depth => .pure rfl

theorem TurnBy.of_resembles [Sketched β] {text : String → String} {turn turn' : ForInStep β}
    (h : Resembles text turn turn') : TurnBy (Resembles text) turn turn' := by
  cases turn with
  | done value =>
      cases turn' with
      | done value' => exact .done (ForInStep.done.inj h)
      | yield value' => cases (show ForInStep.done _ = ForInStep.yield _ from h)
  | yield value =>
      cases turn' with
      | done value' => cases (show ForInStep.yield _ = ForInStep.done _ from h)
      | yield value' => exact .yield (ForInStep.yield.inj h)

theorem PairsBy.mono {R' : α → α → Prop} {p q : Parser α} (h : PairsBy margins R p q)
    (himp : ∀ value value', R value value' → R' value value') : PairsBy margins R' p q := by
  intro state twin hpaired post hpost
  apply (h hpaired hpost).mono
  rintro value next ⟨value', next', hnext, hvalue, hrest⟩
  exact ⟨value', next', hnext, himp value value' hvalue, hrest⟩

theorem PairsBy.iterate [Sketched β] {step step' : β → Parser (ForInStep β)} {start start' : β}
    (hstart : Resembles margins.text start start')
    (hturn : ∀ value value', Resembles margins.text value value' →
      Pairs margins (step value) (step' value')) :
    Pairs margins (Parser.iterate start step) (Parser.iterate start' step') :=
  .iterateBy hstart fun value value' hvalue =>
    (hturn value value' hvalue).mono fun _ _ => .of_resembles

/-- A loop over what is its own sketch. -/
theorem PairsBy.iteratePlain [Sketched β] [Bare β] {step step' : β → Parser (ForInStep β)}
    (start : β) (hturn : ∀ value, Pairs margins (step value) (step' value)) :
    Pairs margins (Parser.iterate start step) (Parser.iterate start step') :=
  .iterate (.refl start) fun value _ hvalue => hvalue.eq ▸ hturn value

theorem pairs_skipToClosing (delimiter : Delimiter) :
    Pairs margins (skipToClosing delimiter) (skipToClosing delimiter) :=
  (PairsBy.iteratePlain 1 (pairs_closingTurn delimiter)).andThen fun _ => .pure rfl

theorem pairs_skipBalanced : Pairs margins skipBalanced skipBalanced := by
  refine .currentKind fun token other _ => PairsBy.at ?_ token other
  split
  · exact pairs_advance.andThen fun _ => .pure rfl
  · exact pairs_advance.andThen fun _ => pairs_skipToClosing _

theorem pairs_skipUntil {test : Parser Bool} (htest : Pairs margins test test) :
    Pairs margins (skipUntil test) (skipUntil test) := by
  refine .iteratePlain () fun _ => htest.andThen fun found => ?_
  refine .ite Iff.rfl (fun _ => .pure rfl) fun _ => ?_
  exact pairs_skipBalanced.andThen fun _ => .pure rfl

/-- The braces that are open are the same on both sides. -/
theorem PairsBy.get {f g : State → Parser α}
    (hf : ∀ state twin : State, state.braceDepth = twin.braceDepth →
      PairsBy margins R (f state) (g twin)) :
    PairsBy margins R (MonadState.get >>= f) (MonadState.get >>= g) :=
  fun _ _ hpaired => .look (fun _ => returns_get) (fun _ => returns_get)
    (hf _ _ hpaired.braceDepth hpaired)

/-- Whether a parser has read something is the same on both sides. -/
theorem PairsBy.ifStalled {p q : Parser α} {stalled stalled' moved moved' : α → Parser β}
    (hp : PairsBy margins R p q)
    (hstalled : ∀ value value', R value value' →
      PairsBy margins S (stalled value) (stalled' value'))
    (hmoved : ∀ value value', R value value' → PairsBy margins S (moved value) (moved' value')) :
    PairsBy margins S
      (MonadState.get >>= fun before => p >>= fun value => MonadState.get >>= fun after =>
        if after.ahead.length = before.ahead.length then stalled value else moved value)
      (MonadState.get >>= fun before => q >>= fun value => MonadState.get >>= fun after =>
        if after.ahead.length = before.ahead.length then stalled' value else moved' value) := by
  intro state twin hpaired post hpost
  simp only [returns_bind, returns_get] at hpost ⊢
  apply (hp hpaired hpost).mono
  rintro value next ⟨value', next', hnext, hvalue, hpaired', hstep⟩
  have hsame : next.ahead.length = state.ahead.length ↔
      next'.ahead.length = twin.ahead.length := by
    obtain ⟨hsame, hsame'⟩ | ⟨hless, hless'⟩ := hstep
    · rw [hsame, hsame']
      exact iff_of_true rfl rfl
    · exact iff_of_false (Nat.ne_of_lt hless) (Nat.ne_of_lt hless')
  have hrest : PairsBy margins S _ _ := .ite hsame (fun _ => hstalled value value' hvalue)
    fun _ => hmoved value value' hvalue
  apply (hrest hpaired' hnext).mono
  rintro result last ⟨result', last', hlast, hresult, hpaired'', hstep'⟩
  exact ⟨result', last', hlast, hresult, hpaired'', hstep.trans hstep'⟩

theorem pairs_atSafePlace : Pairs margins atSafePlace atSafePlace := by
  refine .current fun token other htwins => PairsBy.at (.get fun state twin hdepth => .pure ?_) _ _
  rw [Token.startsConstruct, Token.startsConstruct, htwins.kind, htwins.text, hdepth]

theorem pairs_synchronize : Pairs margins synchronize synchronize := by
  refine .currentKind fun token other _ => PairsBy.at ?_ token other
  refine .ite Iff.rfl (fun _ => .pure rfl) fun _ => ?_
  exact pairs_skipBalanced.andThen fun _ => pairs_skipUntil pairs_atSafePlace

theorem pairs_atListEnd : Pairs margins atListEnd atListEnd :=
  .currentKind fun token other _ => PairsBy.at (.pure rfl) token other

theorem pairs_recoverInList : Pairs margins recoverInList recoverInList :=
  pairs_skipUntil pairs_atListEnd

theorem pairs_ifFailed {recover : Parser Unit} (hrecover : Pairs margins recover recover) :
    Pairs margins (ifFailed recover) (ifFailed recover) :=
  pairs_valueFailed.andThen fun _ => .ite Iff.rfl (fun _ => hrecover) fun _ => .pure rfl

theorem pairs_skipValue : Pairs margins skipValue skipValue := by
  refine .currentKind fun token other _ => PairsBy.at ?_ token other
  refine .ite Iff.rfl (fun _ => .pure rfl) fun _ => ?_
  exact pairs_skipBalanced.andThen fun _ => .pure rfl

end Parser
end SceneLang
