import SceneLang.Proofs.Counters.Elements
import SceneLang.Proofs.Strict.Documents

/-!
# Calls of a parse

A parser calls the parsers that it is composed of, each of them at some state.  A call stands within
as many levels as have been entered on the way to it and not been left again.  The nesting counts
just these levels: what has been read before a call, one after the other, leaves it as it was.  So
the nesting is found to be too deep only by a call within as many levels as there may be.
-/

namespace SceneLang
namespace Parser

variable {α β γ : Type} {context : Context} {state next now : State} {levels : Nat}

/-! ## What composed parsers keep -/

/-- The cursor has moved forward, the depth of braces with it, and the nesting is what it was. -/
structure Restores (state next : State) : Prop where
  moved : Moved state next
  nesting : next.nesting = state.nesting

theorem Restores.refl (state : State) : Restores state state :=
  ⟨.refl state, rfl⟩

theorem Restores.trans {last : State} (h : Restores state next) (h' : Restores next last) :
    Restores state last :=
  ⟨h.moved.trans h'.moved, h'.nesting.trans h.nesting⟩

theorem Operation.restores {f : State → State} (h : Operation f) (state : State) :
    Restores state (f state) := by
  cases h with
  | advance => exact ⟨moved_advance state, state.advance_nesting⟩
  | use feature =>
      dsimp only
      split
      · exact .refl state
      · exact ⟨.refl state, rfl⟩
  | report | valueFailed | interpolation | imports => exact ⟨.refl state, rfl⟩

theorem leads_get {f : State → Parser α} {post : α → State → Prop}
    (h : Leads (f state) context state post) : Leads (get >>= f) context state post :=
  h

theorem leads_peek (n : Nat) : Leads (peek n) context state fun _ next => next = state := by
  refine leads_get ?_
  split
  · exact leads_pure rfl
  · exact leads_throw

/-- At the limit a level is refused, and nothing changes but the log. -/
theorem leads_enter : Leads enter context state fun entered next =>
    (entered = false ∧ maxNesting ≤ state.nesting ∧
      ∃ d, next = { state with log := state.log.push d }) ∨
    (entered = true ∧ state.nesting < maxNesting ∧
      next = { state with nesting := state.nesting + 1 }) := by
  refine leads_get (.ite (fun hlimit => ?_) fun hlimit => ?_)
  · have hreport : Leads
        (reportError .nestingTooDeep s!"nesting too deep: more than {maxNesting} levels") context
        state fun _ next => ∃ d, next = { state with log := state.log.push d } := by
      refine (leads_peek 0).bind ?_
      rintro token _ rfl
      exact (returns_modify.mpr ⟨_, rfl⟩).leads
    exact hreport.bind fun _ next hnext => leads_pure (.inl ⟨rfl, hlimit, hnext⟩)
  · have hentered : Returns (modify fun state => { state with nesting := state.nesting + 1 })
        context state fun _ next => next = { state with nesting := state.nesting + 1 } :=
      returns_modify.mpr rfl
    exact hentered.leads.bind fun _ next hnext =>
      leads_pure (.inr ⟨rfl, Nat.lt_of_not_le hlimit, hnext⟩)

theorem enter_of_lt (h : state.nesting < maxNesting) :
    enter context state = .ok (true, { state with nesting := state.nesting + 1 }) := by
  change (if maxNesting ≤ state.nesting then _ else _ : Parser Bool) context state = _
  rw [if_neg (Nat.not_le_of_lt h)]
  rfl

/-- One level deeper the body is read, or at the limit what is left to do there. -/
theorem returns_deeper_iff {refused body : Parser α} {post : α → State → Prop} :
    Returns (deeper refused body) context state post ↔
      (state.nesting < maxNesting ∧
        Returns body context { state with nesting := state.nesting + 1 } fun value last =>
          post value { last with nesting := last.nesting - 1 }) ∨
      ∃ middle, enter context state = .ok (false, middle) ∧
        Returns refused context middle post := by
  rw [deeper, returns_bind]
  constructor
  · rintro ⟨entered, middle, henter, hrest⟩
    rcases leads_enter entered middle henter with ⟨rfl, -, -⟩ | ⟨rfl, hlimit, rfl⟩
    · rw [if_neg Bool.false_ne_true] at hrest
      exact .inr ⟨middle, henter, hrest⟩
    · rw [if_pos rfl, returns_bind] at hrest
      refine .inl ⟨hlimit, hrest.mono fun value last hlast => ?_⟩
      rwa [returns_bind, leave, returns_modify, returns_pure] at hlast
  · rintro (⟨hlimit, hbody⟩ | ⟨middle, henter, hrefused⟩)
    · refine ⟨true, _, enter_of_lt hlimit, ?_⟩
      dsimp only
      rw [if_pos rfl, returns_bind]
      refine hbody.mono fun value last hlast => ?_
      rwa [returns_bind, leave, returns_modify, returns_pure]
    · refine ⟨false, middle, henter, ?_⟩
      dsimp only
      rwa [if_neg Bool.false_ne_true]

theorem limit_le_of_enter (h : enter context state = .ok (false, next)) :
    maxNesting ≤ state.nesting := by
  rcases leads_enter false next h with ⟨-, hlimit, -⟩ | ⟨hentered, -, -⟩
  · exact hlimit
  · contradiction

theorem restores_of_enter (h : enter context state = .ok (false, next)) : Restores state next := by
  rcases leads_enter false next h with ⟨-, -, d, rfl⟩ | ⟨hentered, -, -⟩
  · exact ⟨.refl state, rfl⟩
  · contradiction

/-- Where a composed parser returns, the nesting is what it was. -/
theorem Composed.leads {p : Parser α} (h : Composed p) :
    Leads p context state fun _ next => Restores state next := by
  induction h generalizing state with
  | pure value => exact leads_pure (.refl state)
  | throw fault => exact leads_throw
  | get => exact (returns_get.mpr (.refl state)).leads
  | read => exact (returns_read.mpr (.refl state)).leads
  | modify h => exact (returns_modify.mpr (h.restores state)).leads
  | bind _ _ hp hf =>
      exact hp.bind fun value next hnext => (hf value).mono fun _ _ hlast => hnext.trans hlast
  | iterate _ start hstep =>
      refine Leads.iterate (fun _ next => Restores state next) (.refl state) ?_
      intro value next hnext
      refine (hstep value).mono fun result last hlast => ?_
      cases result with
      | done value => exact hnext.trans hlast
      | yield value => exact hnext.trans hlast
  | deeper _ _ hrefused hbody =>
      intro value last hrun
      have hreturns : Returns (Parser.deeper _ _) context state fun _ next => next = last :=
        ⟨value, last, hrun, rfl⟩
      rcases returns_deeper_iff.mp hreturns with
        ⟨-, _, inner, hinner, rfl⟩ | ⟨middle, henter, _, _, hmiddle, rfl⟩
      · have hkept : Restores _ inner := hbody _ _ hinner
        exact ⟨hkept.moved, by rw [hkept.nesting]; exact Nat.add_sub_cancel _ _⟩
      · exact (restores_of_enter henter).trans (hrefused _ _ hmiddle)

/-! ## Turns of a loop -/

/-- A loop that starts with a value at a state comes round again, with a value at another state. -/
inductive Rounds (context : Context) (step : β → Parser (ForInStep β)) :
    β → State → β → State → Prop where
  | start (value : β) (state : State) : Rounds context step value state value state
  | again {value following last : β} {state next now : State}
      (hturn : step value context state = .ok (.yield following, next))
      (hshorter : next.ahead.length < state.ahead.length)
      (h : Rounds context step following next last now) : Rounds context step value state last now

section

variable {step : β → Parser (ForInStep β)} {value last : β}

/-- Each turn starts with the nesting of the loop, however many turns there have been. -/
theorem Rounds.restores (h : Rounds context step value state last now)
    (hstep : ∀ value, Composed (step value)) : Restores state now := by
  induction h with
  | start value state => exact .refl state
  | again hturn _ _ ih => exact ((hstep _).leads _ _ hturn).trans ih

/-- The loop goes on where it comes round. -/
theorem Rounds.returns {post : β → State → Prop} (h : Rounds context step value state last now)
    (hreturns : Returns (iterate value step) context state post) :
    Returns (iterate last step) context now post := by
  induction h with
  | start => exact hreturns
  | again hturn _ _ ih =>
      obtain ⟨_, hrest⟩ := (returns_of_run hturn).mp (returns_iterate.mp hreturns)
      exact ih hrest

end

/-! ## Calls -/

/-- In the run of a parser from a state a parser is called at a state, so many levels deeper. -/
inductive Calls (context : Context) :
    {α β : Type} → Parser α → State → Nat → Parser β → State → Prop where
  | here {α : Type} {p : Parser α} (hp : Composed p) (state : State) :
      Calls context p state 0 p state
  | first {α β γ : Type} {p : Parser α} {f : α → Parser β} {q : Parser γ} {state now : State}
      {levels : Nat} (hf : ∀ value, Composed (f value)) (h : Calls context p state levels q now) :
      Calls context (p >>= f) state levels q now
  | rest {α β γ : Type} {p : Parser α} {f : α → Parser β} {q : Parser γ} {state next now : State}
      {value : α} {levels : Nat} (hp : Composed p) (hf : ∀ value, Composed (f value))
      (hrun : p context state = .ok (value, next)) (h : Calls context (f value) next levels q now) :
      Calls context (p >>= f) state levels q now
  | turn {β γ : Type} {step : β → Parser (ForInStep β)} {start value : β} {q : Parser γ}
      {state next now : State} {levels : Nat} (hstep : ∀ value, Composed (step value))
      (hrounds : Rounds context step start state value next)
      (h : Calls context (step value) next levels q now) :
      Calls context (iterate start step) state levels q now
  | body {α γ : Type} {refused body : Parser α} {q : Parser γ} {state now : State} {levels : Nat}
      (hrefused : Composed refused) (hlimit : state.nesting < maxNesting)
      (h : Calls context body { state with nesting := state.nesting + 1 } levels q now) :
      Calls context (deeper refused body) state (levels + 1) q now
  | refused {α γ : Type} {refused body : Parser α} {q : Parser γ} {state next now : State}
      {levels : Nat} (hbody : Composed body) (henter : enter context state = .ok (false, next))
      (h : Calls context refused next levels q now) :
      Calls context (deeper refused body) state levels q now

/-- The cursor has moved forward, and the nesting is so many levels more, within its limit. -/
structure Deepens (levels : Nat) (state now : State) : Prop where
  moved : Moved state now
  nesting : now.nesting = state.nesting + levels
  limit : state.nesting ≤ maxNesting → now.nesting ≤ maxNesting

theorem Restores.deepens (h : Restores state next) (h' : Deepens levels next now) :
    Deepens levels state now :=
  ⟨h.moved.trans h'.moved, by rw [h'.nesting, h.nesting], h.nesting ▸ h'.limit⟩

namespace Calls

variable {p : Parser α} {q : Parser γ}

theorem composed (h : Calls context p state levels q now) : Composed q := by
  induction h with
  | here hp _ => exact hp
  | first _ _ ih | rest _ _ _ _ ih | turn _ _ _ ih | body _ _ _ ih | refused _ _ _ ih => exact ih

/-- The nesting counts the levels that are open. -/
theorem deepens (h : Calls context p state levels q now) : Deepens levels state now := by
  induction h with
  | here _ state => exact ⟨.refl state, rfl, id⟩
  | first _ _ ih => exact ih
  | rest hp _ hrun _ ih => exact (hp.leads _ _ hrun).deepens ih
  | turn hstep hrounds _ ih => exact (hrounds.restores hstep).deepens ih
  | body _ hlimit _ ih =>
      exact ⟨ih.moved, by rw [ih.nesting]; dsimp only; omega, fun _ => ih.limit hlimit⟩
  | refused _ henter _ ih => exact (restores_of_enter henter).deepens ih

/-- What is called by a parser that returns returns. -/
theorem returns (h : Calls context p state levels q now)
    (hreturns : Returns p context state fun _ _ => True) :
    Returns q context now fun _ _ => True := by
  induction h with
  | here => exact hreturns
  | first _ _ ih => exact ih ((returns_bind.mp hreturns).mono fun _ _ _ => trivial)
  | rest _ _ hrun _ ih => exact ih ((returns_of_run hrun).mp (returns_bind.mp hreturns))
  | turn _ hrounds _ ih =>
      have hturn := returns_iterate.mp (hrounds.returns hreturns)
      exact ih (hturn.mono fun _ _ _ => trivial)
  | body _ hlimit _ ih =>
      rcases returns_deeper_iff.mp hreturns with ⟨-, hbody⟩ | ⟨_, henter, -⟩
      · exact ih hbody
      · exact absurd (limit_le_of_enter henter) (Nat.not_le_of_lt hlimit)
  | refused _ henter _ ih =>
      rcases returns_deeper_iff.mp hreturns with ⟨hlimit, -⟩ | ⟨_, henter', hrefused⟩
      · exact absurd (limit_le_of_enter henter) (Nat.not_le_of_lt hlimit)
      · rw [henter] at henter'
        cases henter'
        exact ih hrefused

end Calls

/-- Somewhere in the run of the parser so many levels are open one inside the other. -/
def OpensLevels (context : Context) (p : Parser α) (state : State) (levels : Nat) : Prop :=
  ∃ (γ : Type) (q : Parser γ) (now : State), Calls context p state levels q now

end Parser
end SceneLang

/-!
## Where the nesting is too deep

What is reported to be nested too deeply is reported by a single turn of each of the loops around it,
and it is within as many levels as there may be.
-/

namespace SceneLang

/-- A diagnostic with the code has been kept. -/
def Log.Mentions (log : Log) (code : Code) : Prop :=
  ∃ d ∈ log.errors ++ log.warnings, d.code = code

theorem Log.mentions_of_push {log : Log} {d : Diagnostic} {code : Code}
    (h : (log.push d).Mentions code) (hd : d.code ≠ code) : log.Mentions code := by
  obtain ⟨other, hmem, hcode⟩ := h
  have hne : other ≠ d := by
    rintro rfl
    exact hd hcode
  refine ⟨other, ?_, hcode⟩
  rw [Log.push] at hmem
  split at hmem
  all_goals
    split at hmem
    · simpa [hne] using hmem
    · exact hmem

namespace Parser

variable {α β : Type} {context : Context} {state next : State}

theorem Operation.mentions {f : State → State} (h : Operation f)
    (hafter : (f state).log.Mentions .nestingTooDeep) : state.log.Mentions .nestingTooDeep := by
  cases h with
  | advance => rwa [State.log_advance] at hafter
  | report d hd => exact Log.mentions_of_push hafter hd
  | use feature =>
      dsimp only at hafter
      split at hafter
      · exact hafter
      · exact hafter
  | valueFailed | interpolation | imports => exact hafter

/-- What a loop reports is reported in one of its turns. -/
theorem exists_round {code : Code} {step : β → Parser (ForInStep β)} {start last : β}
    (hrun : iterate start step context state = .ok (last, next))
    (hbefore : ¬state.log.Mentions code) (hafter : next.log.Mentions code) :
    ∃ value head result behind, Rounds context step start state value head ∧
      step value context head = .ok (result, behind) ∧ ¬head.log.Mentions code ∧
      behind.log.Mentions code := by
  -- the induction is on the tokens ahead, of which each turn but the last one reads some
  induction hlength : state.ahead.length using Nat.strongRecOn generalizing start last state
  case ind n ih =>
  have hreturns : Returns (iterate start step) context state fun _ behind => behind = next :=
    ⟨last, next, hrun, rfl⟩
  obtain ⟨result, behind, hturn, hrest⟩ := returns_iterate.mp hreturns
  by_cases hmentions : behind.log.Mentions code
  · exact ⟨start, state, result, behind, .start start state, hturn, hbefore, hmentions⟩
  · cases result with
    | done value => exact absurd (hrest ▸ hafter) hmentions
    | yield value =>
        obtain ⟨hshorter, _, _, hrest, rfl⟩ := hrest
        obtain ⟨found, head, result, last, hrounds, hfound⟩ :=
          ih _ (hlength ▸ hshorter) hrest hmentions rfl
        exact ⟨found, head, result, last, .again hturn hshorter hrounds, hfound⟩

theorem exists_opens {p : Parser α} {value : α} (h : Composed p)
    (hlimit : state.nesting ≤ maxNesting) (hrun : p context state = .ok (value, next))
    (hbefore : ¬state.log.Mentions .nestingTooDeep)
    (hafter : next.log.Mentions .nestingTooDeep) :
    ∃ levels, state.nesting + levels = maxNesting ∧ OpensLevels context p state levels := by
  induction h generalizing state next with
  | pure | get | read =>
      cases hrun
      contradiction
  | throw =>
      cases hrun
  | modify h =>
      cases hrun
      exact absurd (h.mentions hafter) hbefore
  | @bind _ _ p f hp hf ihp ihf =>
      have hreturns : Returns (p >>= f) context state fun _ last => last = next :=
        ⟨value, next, hrun, rfl⟩
      obtain ⟨first, middle, hfirst, _, _, hrest, rfl⟩ := returns_bind.mp hreturns
      by_cases hmiddle : middle.log.Mentions .nestingTooDeep
      · obtain ⟨levels, hlevels, _, q, now, hcalls⟩ := ihp hlimit hfirst hbefore hmiddle
        exact ⟨levels, hlevels, _, q, now, .first hf hcalls⟩
      · have hkept := hp.leads _ _ hfirst
        obtain ⟨levels, hlevels, _, q, now, hcalls⟩ :=
          ihf first (hkept.nesting ▸ hlimit) hrest hmiddle hafter
        exact ⟨levels, hkept.nesting ▸ hlevels, _, q, now, .rest hp hf hfirst hcalls⟩
  | iterate hstep start ih =>
      obtain ⟨found, head, _, behind, hrounds, hturn, hhead, hbehind⟩ :=
        exists_round hrun hbefore hafter
      have hkept := hrounds.restores hstep
      obtain ⟨levels, hlevels, _, q, now, hcalls⟩ :=
        ih found (hkept.nesting ▸ hlimit) hturn hhead hbehind
      exact ⟨levels, hkept.nesting ▸ hlevels, _, q, now, .turn hstep hrounds hcalls⟩
  | @deeper _ refused body hrefused hbody ihrefused ihbody =>
      by_cases hbelow : state.nesting < maxNesting
      · have hreturns : Returns (deeper refused body) context state fun _ last => last = next :=
          ⟨value, next, hrun, rfl⟩
        rcases returns_deeper_iff.mp hreturns with ⟨-, _, inner, hinner, rfl⟩ | ⟨_, henter, -⟩
        · have hentered : { state with nesting := state.nesting + 1 }.nesting ≤ maxNesting := hbelow
          obtain ⟨levels, hlevels, _, q, now, hcalls⟩ := ihbody hentered hinner hbefore hafter
          refine ⟨levels + 1, ?_, _, q, now, .body hrefused hbelow hcalls⟩
          dsimp only at hlevels
          omega
        · exact absurd (limit_le_of_enter henter) (Nat.not_le_of_lt hbelow)
      · exact ⟨0, by omega, _, _, state, .here (.deeper hrefused hbody) state⟩

end Parser
end SceneLang

/-!
## The counters of a parse

A parse counts the levels that are open and the braces that are open.  Wherever it gets, the first
count is that of the levels around the call it is in, and the second one is the balance of the braces
that have been read.  What stands side by side, on whatever level, does not add up.
-/

namespace SceneLang
namespace Parser

theorem composed_assemble (start : Position) (roots : List Node) (loose : Node) :
    Composed (assemble start roots loose) := by
  unfold assemble
  dsimp only
  split
  · exact composed_close loose start
  · split
    · exact .pure _
    · exact .pure _

theorem composed_document : Composed document :=
  composed_startPosition.bind fun start => .bind .get fun _ =>
    (composed_topLevel (composed_level _) _).bind fun _ => composed_assemble start _ _

/-- How many braces are open behind the tokens; a closing brace counts only where one is open. -/
def braceBalance (tokens : List Token) : Nat :=
  tokens.foldl (fun balance token =>
    if token.kind = .leftBrace then balance + 1
    else if token.kind = .rightBrace then balance - 1
    else balance) 0

theorem depthBehind_zero (tokens : List Token) : depthBehind 0 tokens = braceBalance tokens := by
  unfold depthBehind braceBalance
  congr
  funext depth token
  cases token.kind <;> rfl

/-- With so many levels open, the counters of a parse of the tokens are as they should be. -/
structure AtLevel (tokens : List Token) (levels : Nat) (state : State) : Prop where
  nesting : state.nesting = levels
  limit : levels ≤ maxNesting
  braces : ∃ consumed, tokens = consumed ++ state.ahead ∧
    state.braceDepth = braceBalance consumed

variable {options : ParseOptions} {tokens : List Token} {levels : Nat} {context : Context}
  {state next : State}

theorem atLevel_start (options : ParseOptions) (tokens : List Token) :
    AtLevel tokens 0 (.start options tokens) :=
  ⟨rfl, Nat.zero_le _, [], rfl, rfl⟩

theorem Deepens.atLevel (h : Deepens levels (.start options tokens) state) :
    AtLevel tokens levels state := by
  obtain ⟨consumed, hsplit, -, hdepth⟩ := h.moved
  have hnesting : state.nesting = levels := h.nesting.trans (Nat.zero_add levels)
  refine ⟨hnesting, hnesting ▸ h.limit (Nat.zero_le _), consumed, hsplit, ?_⟩
  exact hdepth.trans (depthBehind_zero consumed)

/-- What is read between two states is added to the balance. -/
theorem AtLevel.restores (h : AtLevel tokens levels state) (h' : Restores state next) :
    AtLevel tokens levels next := by
  obtain ⟨consumed, hsplit, hdepth⟩ := h.braces
  obtain ⟨front, hahead, -, hbehind⟩ := h'.moved
  refine ⟨h'.nesting.trans h.nesting, h.limit, consumed ++ front, ?_, ?_⟩
  · rw [hsplit, hahead, List.append_assoc]
  · rw [hbehind, hdepth, ← depthBehind_zero, ← depthBehind_zero, depthBehind_append]

/-- A loop finds the nesting too deep only if a single turn opens all the levels that are left. -/
theorem AtLevel.exists_round {β : Type} {step : β → Parser (ForInStep β)} {value last : β}
    (h : AtLevel tokens levels state) (hstep : ∀ value, Composed (step value))
    (hrun : iterate value step context state = .ok (last, next))
    (hbefore : ¬state.log.Mentions .nestingTooDeep)
    (hafter : next.log.Mentions .nestingTooDeep) :
    ∃ found head further, Rounds context step value state found head ∧
      OpensLevels context (step found) head further ∧ levels + further = maxNesting := by
  obtain ⟨found, head, _, _, hrounds, hturn, hhead, hbehind⟩ :=
    Parser.exists_round hrun hbefore hafter
  have hlevel := h.restores (hrounds.restores hstep)
  have hlimit : head.nesting ≤ maxNesting := hlevel.nesting ▸ hlevel.limit
  obtain ⟨further, hfurther, hopens⟩ := exists_opens (hstep found) hlimit hturn hhead hbehind
  exact ⟨found, head, further, hrounds, hopens, hlevel.nesting ▸ hfurther⟩

theorem leads_close (node : Node) (start : Position) :
    Leads (close node start) context state fun _ last => last = state := by
  have hend : Leads endPosition context state fun _ last => last = state := by
    refine leads_get ?_
    split
    · exact leads_pure rfl
    · exact Leads.bind (returns_read.mpr rfl).leads fun _ _ hnext => leads_pure hnext
  refine (hend.bind fun _ _ hnext => leads_pure hnext).bind fun _ _ hnext => leads_pure hnext

theorem leads_assemble (start : Position) (roots : List Node) (loose : Node) :
    Leads (assemble start roots loose) context state fun _ last => last = state := by
  unfold assemble
  dsimp only
  split
  · exact leads_close loose start
  · split
    · exact leads_pure rfl
    · exact leads_pure rfl

/-- Behind the elements of a text nothing happens to the state. -/
theorem leads_document_of_topLevel (hended : Ended state.ahead) :
    Leads document context state fun _ last =>
      ∃ found, topLevel (level (state.ahead.length + 1)) (.fragment [] default) context state =
        .ok (found, last) := by
  rw [document, startPosition, bind_assoc]
  refine leads_current hended ?_
  rw [pure_bind]
  refine leads_get ?_
  have htop : Leads (topLevel (level (state.ahead.length + 1)) (.fragment [] default)) context state
      fun found last => topLevel (level (state.ahead.length + 1)) (.fragment [] default) context
        state = .ok (found, last) :=
    fun _ _ hrun => hrun
  refine htop.bind fun found middle hfound => ?_
  obtain ⟨roots, loose⟩ := found
  refine Leads.mono (leads_assemble state.token.position roots loose) fun _ last hlast => ?_
  exact ⟨(roots, loose), hlast ▸ hfound⟩

/-- The elements of a text are read in its one loop, which starts with the parse. -/
theorem calls_topLevel (hended : Ended state.ahead) :
    Calls context document state 0
      (topLevel (level (state.ahead.length + 1)) (.fragment [] default)) state := by
  have htop : ∀ fuel, Composed (topLevel (level fuel) (.fragment [] default)) := fun fuel =>
    composed_topLevel (composed_level fuel) _
  obtain ⟨start, _, hstart, rfl⟩ : Returns startPosition context state fun _ next => next = state :=
    by rw [startPosition, returns_bind, returns_current hended, returns_pure]
  refine .rest composed_startPosition (fun start => .bind .get fun _ =>
    (htop _).bind fun _ => composed_assemble start _ _) hstart ?_
  refine .rest .get (fun _ => (htop _).bind fun _ => composed_assemble start _ _) rfl ?_
  exact .first (fun _ => composed_assemble start _ _) (.here (htop _) _)

/-- The counters of a parse, whatever its options and its tokens are.  The parse comes to its end.
Each parser that it calls returns, and both at the call and behind it the nesting is the number of
levels around the call, which is never more than there may be, and the depth of braces is the balance
of the braces that have been read.  The loop over the elements of the text comes round with no level
open, and any other loop with the levels around it, however often it has come round: if it reports
that the nesting is too deep, a single turn of it opens all the levels that are left.  So if the
document says so, the reading of a single element of the text, from no level at all, opens as many
levels as there may be. -/
theorem run_restores_counters (options : ParseOptions) (source : List Char)
    (tokens : List Token) :
    let all := withEnd source tokens
    let context : Context := ⟨source, options⟩
    let start := State.start options all
    let turn := topTurn (level (all.length + 1))
    let loose := Node.fragment [] default
    (∃ root last, run options source tokens = .ok (root, last) ∧ AtLevel all 0 last) ∧
    (∀ {α : Type} (q : Parser α) levels state, Calls context document start levels q state →
      AtLevel all levels state ∧
        Returns q context state fun _ next => AtLevel all levels next) ∧
    (Calls context document start 0 (iterate ([], loose) turn) start ∧
      ∀ found state, Rounds context turn ([], loose) start found state → AtLevel all 0 state) ∧
    (∀ {β : Type} (step : β → Parser (ForInStep β)) value levels state,
      (∀ value, Composed (step value)) →
      Calls context document start levels (iterate value step) state →
        (∀ found head, Rounds context step value state found head → AtLevel all levels head) ∧
        ∀ result next, iterate value step context state = .ok (result, next) →
          next.log.Mentions .nestingTooDeep → ¬state.log.Mentions .nestingTooDeep →
            ∃ found head further, Rounds context step value state found head ∧
              OpensLevels context (step found) head further ∧ levels + further = maxNesting) ∧
    ((∃ d ∈ (Document.ofTokens options source tokens).diagnostics, d.code = .nestingTooDeep) →
      ∃ found state, Rounds context turn ([], loose) start found state ∧
        OpensLevels context (turn found) state maxNesting) := by
  intro all context start turn loose
  have hended : Ended start.ahead := ended_withEnd source tokens
  have hturn : ∀ found, Composed (turn found) := composed_topTurn (composed_level _)
  obtain ⟨root, last, hrun, -⟩ : Returns document context start _ :=
    returns_document hended (Nat.zero_le _)
  have hdocument : Document.ofTokens options source tokens = Document.ofState root last := by
    have hrun : run options source tokens = .ok (root, last) := hrun
    rw [Document.ofTokens, hrun]
  refine ⟨⟨root, last, hrun, ?_⟩, ?_, ⟨calls_topLevel hended, ?_⟩, ?_, ?_⟩
  · exact (atLevel_start options all).restores (composed_document.leads root last hrun)
  · intro α q levels state hcalls
    have hlevel : AtLevel all levels state := hcalls.deepens.atLevel
    obtain ⟨result, next, hresult, -⟩ := hcalls.returns ⟨root, last, hrun, trivial⟩
    exact ⟨hlevel, result, next, hresult,
      hlevel.restores (hcalls.composed.leads result next hresult)⟩
  · intro found state hrounds
    exact (atLevel_start options all).restores (hrounds.restores hturn)
  · intro β step value levels state hstep hcalls
    have hlevel : AtLevel all levels state := hcalls.deepens.atLevel
    refine ⟨fun found head hrounds => hlevel.restores (hrounds.restores hstep), ?_⟩
    intro result next hloop hafter hbefore
    exact hlevel.exists_round hstep hloop hbefore hafter
  · rw [hdocument]
    intro hafter
    obtain ⟨found, htop⟩ := leads_document_of_topLevel hended root last hrun
    have hbefore : ¬start.log.Mentions .nestingTooDeep := by
      rintro ⟨d, hmem, -⟩
      contradiction
    obtain ⟨found, head, further, hrounds, hopens, hfurther⟩ :=
      (atLevel_start options all).exists_round hturn htop hbefore hafter
    rw [Nat.zero_add] at hfurther
    exact ⟨found, head, hrounds, hfurther ▸ hopens⟩

/-- The head of an element with a property and as many opening brackets as there may be levels. -/
def deepList : List Token :=
  [⟨.identifier, "object", ⟨0, 6⟩, ⟨1, 1⟩⟩, ⟨.leftBrace, "\x7b", ⟨7, 8⟩, ⟨1, 8⟩⟩,
   ⟨.identifier, "rows", ⟨9, 13⟩, ⟨1, 10⟩⟩, ⟨.colon, ":", ⟨13, 14⟩, ⟨1, 14⟩⟩] ++
  (List.range maxNesting).map fun n => ⟨.leftBracket, "[", ⟨15 + n, 16 + n⟩, ⟨1, 16 + n⟩⟩

/-- The element is one level, so that its value goes beyond the limit. -/
theorem run_restores_counters_deepList :
    ∃ found state, Rounds ⟨[], .default⟩ (topTurn (level (deepList.length + 2)))
      ([], .fragment [] default) (.start .default (withEnd [] deepList)) found state ∧
      OpensLevels ⟨[], .default⟩ (topTurn (level (deepList.length + 2)) found) state
        maxNesting := by
  have htooDeep : ∃ d ∈ (Document.ofTokens .default [] deepList).diagnostics,
      d.code = .nestingTooDeep := by
    decide +kernel
  have hlength : (withEnd [] deepList).length + 1 = deepList.length + 2 := by decide +kernel
  have hopens := (run_restores_counters .default [] deepList).2.2.2.2 htooDeep
  rwa [hlength] at hopens

end Parser
end SceneLang
