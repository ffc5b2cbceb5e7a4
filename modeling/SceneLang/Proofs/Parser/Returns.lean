import SceneLang.Document

/-!
# Parsers that return

A parser returns from a state if it runs into no fault.  `Returns` says so together with
what holds of the result and of the state behind it, and follows the parser step by step:
a sequence returns if its first part returns to a state from which the second part does.
For a loop it is enough that every turn keeps an invariant and reads a token unless it is
the last one.
-/

namespace SceneLang
namespace Parser

variable {α β : Type} {context : Context} {state : State}

/-- The parser runs into no fault, and its result and the state behind it are as said. -/
def Returns (p : Parser α) (context : Context) (state : State)
    (post : α → State → Prop) : Prop :=
  ∃ value next, p context state = .ok (value, next) ∧ post value next

theorem Returns.mono {p : Parser α} {post weaker : α → State → Prop}
    (h : Returns p context state post)
    (himp : ∀ value next, post value next → weaker value next) :
    Returns p context state weaker := by
  obtain ⟨value, next, hrun, hpost⟩ := h
  exact ⟨value, next, hrun, himp value next hpost⟩

theorem returns_of_run {p : Parser α} {value : α} {next : State} {post : α → State → Prop}
    (hrun : p context state = .ok (value, next)) :
    Returns p context state post ↔ post value next := by
  constructor
  · rintro ⟨_, _, hrun', hpost⟩
    rw [hrun] at hrun'
    cases hrun'
    exact hpost
  · intro hpost
    exact ⟨value, next, hrun, hpost⟩

@[simp] theorem returns_pure {value : α} {post : α → State → Prop} :
    Returns (pure value) context state post ↔ post value state :=
  returns_of_run rfl

@[simp] theorem returns_bind {p : Parser α} {f : α → Parser β} {post : β → State → Prop} :
    Returns (p >>= f) context state post ↔
      Returns p context state fun value next => Returns (f value) context next post := by
  constructor
  · rintro ⟨value, next, hrun, hpost⟩
    change (p context state >>= fun r => f r.1 context r.2) = _ at hrun
    cases hp : p context state with
    | error fault =>
        rw [hp] at hrun
        contradiction
    | ok result =>
        rw [hp] at hrun
        exact ⟨result.1, result.2, hp, value, next, hrun, hpost⟩
  · rintro ⟨value, next, hp, result, last, hf, hpost⟩
    refine ⟨result, last, ?_, hpost⟩
    change (p context state >>= fun r => f r.1 context r.2) = _
    rw [hp]
    exact hf

/-- A sequence returns if its first part does, to states from which the second part does. -/
theorem Returns.bind {p : Parser α} {f : α → Parser β} {between : α → State → Prop}
    {post : β → State → Prop} (hp : Returns p context state between)
    (hf : ∀ value next, between value next → Returns (f value) context next post) :
    Returns (p >>= f) context state post := by
  rw [returns_bind]
  exact hp.mono hf

@[simp] theorem returns_get {post : State → State → Prop} :
    Returns get context state post ↔ post state state :=
  returns_of_run rfl

@[simp] theorem returns_read {post : Context → State → Prop} :
    Returns read context state post ↔ post context state :=
  returns_of_run rfl

@[simp] theorem returns_modify {f : State → State} {post : Unit → State → Prop} :
    Returns (modify f) context state post ↔ post () (f state) :=
  returns_of_run rfl

theorem returns_ite {c : Prop} [Decidable c] {p q : Parser α} {post : α → State → Prop} :
    Returns (if c then p else q) context state post ↔
      (c → Returns p context state post) ∧ (¬c → Returns q context state post) := by
  by_cases h : c
  · simp [h]
  · simp [h]

theorem Returns.ite {c : Prop} [Decidable c] {p q : Parser α} {post : α → State → Prop}
    (hp : Returns p context state post) (hq : Returns q context state post) :
    Returns (if c then p else q) context state post :=
  returns_ite.mpr ⟨fun _ => hp, fun _ => hq⟩

/-- A loop returns as its first turn does, and from there on as the loop does again. -/
theorem returns_iterate {step : β → Parser (ForInStep β)} {value : β}
    {post : β → State → Prop} :
    Returns (iterate value step) context state post ↔
      Returns (step value) context state fun result next =>
        match result with
        | .done value => post value next
        | .yield value => next.ahead.length < state.ahead.length ∧
            Returns (iterate value step) context next post := by
  constructor
  · rintro ⟨last, final, hrun, hpost⟩
    rw [iterate, turns] at hrun
    cases hstep : step value context state with
    | error fault =>
        rw [hstep] at hrun
        contradiction
    | ok result =>
        obtain ⟨result, next⟩ := result
        rw [hstep] at hrun
        refine ⟨result, next, hstep, ?_⟩
        cases result with
        | done value =>
            cases hrun
            exact hpost
        | yield value =>
            simp only [bind, Except.bind] at hrun
            split at hrun
            next hshorter => exact ⟨hshorter, last, final, hrun, hpost⟩
            next => contradiction
  · rintro ⟨result, next, hstep, hresult⟩
    cases result with
    | done value =>
        refine ⟨value, next, ?_, hresult⟩
        rw [iterate, turns, hstep]
        rfl
    | yield value =>
        obtain ⟨hshorter, last, final, hlast, hpost⟩ := hresult
        refine ⟨last, final, ?_, hpost⟩
        rw [iterate, turns, hstep]
        simp only [bind, Except.bind, if_pos hshorter]
        exact hlast

/-- A loop returns if each turn keeps an invariant, reads a token when the loop goes on, and
comes to the result when it does not. -/
theorem Returns.iterate {step : β → Parser (ForInStep β)} {start : β}
    {post : β → State → Prop} (invariant : β → State → Prop)
    (hstart : invariant start state)
    (hturn : ∀ value state, invariant value state →
      Returns (step value) context state fun result next =>
        match result with
        | .done value => post value next
        | .yield value => invariant value next ∧ next.ahead.length < state.ahead.length) :
    Returns (Parser.iterate start step) context state post := by
  -- The induction is on the tokens ahead, which every turn but the last one makes fewer.
  induction hlength : state.ahead.length using Nat.strongRecOn generalizing start state
  case ind n ih =>
  rw [returns_iterate]
  apply (hturn start state hstart).mono
  intro result next hresult
  cases result with
  | done value => exact hresult
  | yield value =>
      obtain ⟨hnext, hshorter⟩ := hresult
      exact ⟨hshorter, ih next.ahead.length (by omega) hnext rfl⟩

end Parser
end SceneLang
