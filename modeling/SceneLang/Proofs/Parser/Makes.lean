import SceneLang.Proofs.Parser.Reports
import SceneLang.Proofs.Shelter.Dwelling

/-!
# What parsers make

What a parser has read is judged in the state behind it.  A judgement that lasts holds in every
state that is reached later on, so that a parser which builds on what was read before it does
not have to look at it again.
-/

namespace SceneLang

/-! ## Codes of a log -/

/-- An error of the code was reported, unless errors were dropped. -/
def Log.Reports (code : Code) (log : Log) : Prop :=
  log.droppedErrors ≠ 0 ∨ ∃ d ∈ log.errors, d.code = code

namespace Log

variable {code : Code} {log : Log}

theorem Reports.push (h : log.Reports code) (d : Diagnostic) : (log.push d).Reports code := by
  unfold Log.push
  split
  · split
    · obtain hdropped | ⟨other, hmem, hcode⟩ := h
      · exact .inl hdropped
      · exact .inr ⟨other, List.mem_append_left _ hmem, hcode⟩
    · exact .inl (Nat.succ_ne_zero _)
  · split
    · exact h
    · exact h

theorem reports_push {d : Diagnostic} (herror : d.isError = true) (hcode : d.code = code) :
    (log.push d).Reports code := by
  rw [Log.push, if_pos herror]
  split
  · exact .inr ⟨d, List.mem_append_right _ List.mem_cons_self, hcode⟩
  · exact .inl (Nat.succ_ne_zero _)

end Log

namespace Parser

variable {α β : Type} {bound depth : Nat} {past : State}

theorem State.advance_log (state : State) : state.advance.log = state.log := by
  unfold State.advance
  split
  · rfl
  · split <;> rfl

/-! ## Judgements that last -/

/-- Once it holds in a state, it holds in all states that are reached from there. -/
def Lasting (made : α → State → Prop) : Prop :=
  ∀ value state next, Reaches state next → made value state → made value next

theorem lasting_reports (code : Code) :
    Lasting fun (_ : α) state => state.log.Reports code := by
  intro _ state next hreaches hstate
  apply hreaches.invariant _ hstate
  intro first second hstep hfirst
  cases hstep with
  | advance => rwa [State.advance_log]
  | report d => exact hfirst.push d
  | valueFailed | use | enter | leave | interpolation | imports => exact hfirst

/-- What is made of the parts of a value lasts if what is made of each part does. -/
theorem Lasting.parts {made : α → State → Prop} (h : Lasting made) (parts : β → List α) :
    Lasting fun value state => ∀ part ∈ parts value, made part state :=
  fun _ state next hreaches hstate part hmem => h part state next hreaches (hstate part hmem)

theorem Lasting.comap {made : α → State → Prop} (h : Lasting made) (f : β → α) :
    Lasting fun value state => made (f value) state :=
  fun value => h (f value)

/-! ## What parsers make -/

/-- Started where `past` has led, the parser comes to results that are as said in the states
behind them. -/
def Makes (bound depth : Nat) (past : State) (p : Parser α) (made : α → State → Prop) : Prop :=
  ∀ context state, Within bound depth state → Reaches past state →
    Leads p context state fun value next =>
      Within bound depth next ∧ Reaches state next ∧ made value next

section

variable {p : Parser α} {f : α → Parser β} {made weaker : α → State → Prop}
  {made' : β → State → Prop}

theorem Makes.later {now : State} (h : Makes bound depth past p made)
    (hreaches : Reaches past now) : Makes bound depth now p made :=
  fun context state hwithin hnow => h context state hwithin (hreaches.trans hnow)

theorem Makes.mono (h : Makes bound depth past p made)
    (himp : ∀ value now, Reaches past now → made value now → weaker value now) :
    Makes bound depth past p weaker := by
  intro context state hwithin hpast
  refine (h context state hwithin hpast).mono ?_
  rintro value next ⟨hnext, hreaches, hmade⟩
  exact ⟨hnext, hreaches, himp value next (hpast.trans hreaches) hmade⟩

theorem Makes.pure {value : α} (h : ∀ now, Reaches past now → made value now) :
    Makes bound depth past (pure value) made :=
  fun _ state hwithin hpast => leads_pure ⟨hwithin, .refl, h state hpast⟩

/-- A parser that runs into a fault makes nothing. -/
theorem makes_throw {fault : Fault} : Makes bound depth past (throw fault) made :=
  fun _ _ _ _ => leads_throw

/-- The nesting of a state never exceeds the limit. -/
theorem Makes.of_depth_le (h : depth ≤ maxNesting → Makes bound depth past p made) :
    Makes bound depth past p made :=
  fun context state hwithin => h hwithin.depth_le context state hwithin

theorem Lasting.makes {value : α} (hlasting : Lasting made) (h : made value past) :
    Makes bound depth past (pure value) made :=
  .pure fun now hnow => hlasting value past now hnow h

/-- Where a parser is steady, no more needs to be known of it. -/
theorem Steady.makes (h : Steady bound depth p) :
    Makes bound depth past p fun _ _ => True := by
  intro context state hwithin _
  refine (h context state hwithin).leads.mono fun value next hnext => ?_
  exact ⟨hwithin.keeps hnext, hnext.reaches, trivial⟩

theorem Makes.bind (hp : Makes bound depth past p made)
    (hf : ∀ value now, Reaches past now → made value now →
      Makes bound depth now (f value) made') : Makes bound depth past (p >>= f) made' := by
  intro context state hwithin hpast
  refine (hp context state hwithin hpast).bind ?_
  rintro value next ⟨hnext, hreaches, hmade⟩
  have hrest := hf value next (hpast.trans hreaches) hmade context next hnext .refl
  refine hrest.mono ?_
  rintro result last ⟨hlast, hreaches', hmade'⟩
  exact ⟨hlast, hreaches.trans hreaches', hmade'⟩

theorem Steady.before (hp : Steady bound depth p)
    (hf : ∀ value, Makes bound depth past (f value) made') :
    Makes bound depth past (p >>= f) made' :=
  hp.makes.bind fun value _ hreaches _ => (hf value).later hreaches

theorem Makes.ite {c : Prop} [Decidable c] {q : Parser α}
    (hp : c → Makes bound depth past p made) (hq : ¬c → Makes bound depth past q made) :
    Makes bound depth past (if c then p else q) made :=
  fun context state hwithin hpast =>
    .ite (fun h => hp h context state hwithin hpast) fun h => hq h context state hwithin hpast

theorem makes_lower (count : Nat) : Makes bound depth past (lower count) fun _ _ => True := by
  cases count with
  | zero => exact makes_throw
  | succ count => exact .pure fun _ _ => trivial

end

/-! ## Loops -/

/-- What a turn of a loop makes: the result of the loop, or what the loop goes on with. -/
def Turned (done yield : β → State → Prop) : ForInStep β → State → Prop
  | .done value => done value
  | .yield value => yield value

theorem lasting_turned {done yield : β → State → Prop} (h : Lasting done) (h' : Lasting yield) :
    Lasting (Turned done yield) := by
  intro result
  cases result with
  | done value => exact h value
  | yield value => exact h' value

theorem Makes.iterate {step : β → Parser (ForInStep β)} {start : β}
    {invariant made : β → State → Prop} (hlasting : Lasting invariant)
    (hstart : invariant start past)
    (hturn : ∀ value now, Reaches past now → invariant value now →
      Makes bound depth now (step value) (Turned made invariant)) :
    Makes bound depth past (iterate start step) made := by
  intro context state hwithin hpast
  refine Leads.iterate (fun value next =>
    Within bound depth next ∧ Reaches state next ∧ invariant value next) ?_ ?_
  · exact ⟨hwithin, .refl, hlasting start past state hpast hstart⟩
  · rintro value next ⟨hnext, hreaches, hvalue⟩
    have hstep := hturn value next (hpast.trans hreaches) hvalue context next hnext .refl
    refine hstep.mono ?_
    rintro result last ⟨hlast, hreaches', hresult⟩
    cases result with
    | done value => exact ⟨hlast, hreaches.trans hreaches', hresult⟩
    | yield value => exact ⟨hlast, hreaches.trans hreaches', hresult⟩

section

variable {item : β → Parser β} {start : β} {made : β → State → Prop}

theorem makes_bracedItem {p : Parser β} (hlasting : Lasting made)
    (hp : Makes bound depth past p made) :
    Makes bound depth past (bracedItem p) (Turned made made) := by
  apply resting_get.steady.before
  intro before
  apply hp.bind
  intro value now _ hvalue
  have hyield : Makes bound depth now (pure (.yield value)) (Turned made made) :=
    (lasting_turned hlasting hlasting).makes hvalue
  apply resting_get.steady.before
  intro after
  apply Makes.ite
  · intro _
    apply resting_currentKind.steady.before
    intro kind
    exact .ite (fun _ => hyield) fun _ => steady_advance.before fun _ => hyield
  · exact fun _ => hyield

/-- What each item of a block makes out of the items before it, the block does. -/
theorem Makes.braced (hlasting : Lasting made) (hstart : made start past)
    (hitem : ∀ value now, Reaches past now → made value now →
      Makes bound depth now (item value) made) :
    Makes bound depth past (braced start item) made := by
  apply resting_current.steady.before
  intro opening
  apply (steady_eat .leftBrace).before
  intro opened
  apply Makes.ite
  · intro _
    apply Makes.iterate hlasting hstart
    intro value now hnow hvalue
    have hturned : Lasting (Turned made made) := lasting_turned hlasting hlasting
    apply resting_currentKind.steady.before
    intro kind
    split
    · exact steady_advance.before fun _ => hturned.makes hvalue
    · exact (resting_reportUnclosed opening).steady.before fun _ => hturned.makes hvalue
    · exact steady_advance.before fun _ => hturned.makes hvalue
    · exact steady_advance.before fun _ => hturned.makes hvalue
    · exact makes_bracedItem hlasting (hitem value now hnow hvalue)
  · intro _
    apply (resting_unexpected _).steady.before
    intro _
    exact hlasting.makes hstart

end

/-! ## Nesting -/

theorem returns_reportError {context : Context} {state : State} {code : Code} {message : String}
    (hended : Ended state.ahead) :
    Returns (reportError code message) context state fun _ next =>
      Same state next ∧ next.log.Reports code := by
  rw [reportError, returns_bind, returns_current hended, report, returns_modify]
  exact ⟨⟨rfl, rfl, rfl, .single (.report state _)⟩, Log.reports_push rfl rfl⟩

/-- A level is entered below the limit.  At the limit it is refused, and an error says so. -/
theorem returns_enter {context : Context} {state : State} (hended : Ended state.ahead) :
    Returns enter context state fun entered next =>
      (entered = false ∧ maxNesting ≤ state.nesting ∧ Same state next ∧
        next.log.Reports .nestingTooDeep) ∨
      (entered = true ∧ state.nesting < maxNesting ∧
        next = { state with nesting := state.nesting + 1 }) := by
  rw [enter, returns_bind, returns_get, returns_ite]
  constructor
  · intro hlimit
    rw [returns_bind]
    exact (returns_reportError hended).mono fun _ _ h =>
      returns_pure.mpr (.inl ⟨rfl, hlimit, h⟩)
  · intro hlimit
    rw [returns_bind, returns_modify, returns_pure]
    exact .inr ⟨rfl, Nat.lt_of_not_le hlimit, rfl⟩

/-- One level deeper the nesting is one more.  At its limit the level is refused, and an error
says so. -/
theorem Makes.deeper {refused body : Parser α} {made : α → State → Prop}
    (hlasting : Lasting made)
    (hrefused : depth = maxNesting → ∀ now, Reaches past now →
      now.log.Reports .nestingTooDeep → Makes bound depth now refused made)
    (hbody : depth < maxNesting → ∀ now, Reaches past now →
      Makes bound (depth + 1) now body made) :
    Makes bound depth past (deeper refused body) made := by
  intro context state hwithin hpast
  refine (returns_enter hwithin.ended).leads.bind ?_
  rintro _ next (⟨rfl, hlimit, hsame, hreports⟩ | ⟨rfl, hlimit, rfl⟩)
  · have hdepth : depth = maxNesting :=
      Nat.le_antisymm hwithin.depth_le (hwithin.nesting ▸ hlimit)
    rw [if_neg Bool.false_ne_true]
    have hmakes := hrefused hdepth next (hpast.trans hsame.reaches) hreports
    refine (hmakes context next (hwithin.keeps hsame.keeps) .refl).mono ?_
    rintro value last ⟨hlast, hreaches, hmade⟩
    exact ⟨hlast, hsame.reaches.trans hreaches, hmade⟩
  · have hdepth : depth < maxNesting := hwithin.nesting ▸ hlimit
    rw [if_pos rfl]
    have hentered : Within bound (depth + 1) { state with nesting := state.nesting + 1 } :=
      ⟨hwithin.ended, hwithin.short, congrArg (· + 1) hwithin.nesting, hdepth⟩
    have hreaches : Reaches state { state with nesting := state.nesting + 1 } :=
      .single (.enter state)
    have hmakes := hbody hdepth _ (hpast.trans hreaches)
    refine (hmakes context _ hentered .refl).bind ?_
    rintro value next ⟨hnext, hreaches', hmade⟩
    have hleave : Returns leave context next fun _ last =>
        last = { next with nesting := next.nesting - 1 } := returns_modify.mpr rfl
    refine hleave.leads.bind ?_
    rintro _ _ rfl
    have hleft : Reaches next { next with nesting := next.nesting - 1 } := .single (.leave next)
    have hnesting : next.nesting - 1 = depth := by rw [hnext.nesting, Nat.add_sub_cancel]
    exact leads_pure ⟨⟨hnext.ended, hnext.short, hnesting, hwithin.depth_le⟩,
      (hreaches.trans hreaches').trans hleft, hlasting value next _ hleft hmade⟩

end Parser
end SceneLang
