import SceneLang.Proofs.Shelter.Groups
import SceneLang.Proofs.Parser.Steady

/-!
# Parsers that stay within a block

Within a block the tokens ahead close the groups that are open, and then come the tokens behind
the block.  A parser dwells in the block if, wherever it comes to a result, it has not gone
beyond the end of the block and has closed no brace that was open before.
-/

namespace SceneLang
namespace Parser

variable {after : List Token} {opened : List Delimiter} {state next : State}

/-! ## States within a block -/

/-- The tokens ahead close the groups that are open, and then come those behind the block. -/
structure Inside (after : List Token) (opened : List Delimiter) (state : State) : Prop where
  ahead : ∃ front, state.ahead = front ++ after ∧ Closes opened front
  depth : state.braceDepth = opened.count .brace
  ended : Ended after
  nesting : state.nesting ≤ maxNesting

/-- The parse has not gone beyond the end of the block. -/
def Among (after : List Token) (state : State) : Prop :=
  ∃ opened, Inside after opened state

/-- The parse has not come to the end of the block. -/
def Sheltered (after : List Token) (state : State) : Prop :=
  Among after state ∧ 0 < state.braceDepth

theorem visible_hidden {depth : Nat} {hidden rest : List Token} {token : Token}
    (hdepth : 0 < depth) (hhidden : ∀ other ∈ hidden, other.kind.isLayout = true)
    (hplain : token.kind.isLayout = false) :
    visible depth (hidden ++ token :: rest) = token :: rest := by
  induction hidden with
  | nil => exact visible_cons hplain
  | cons first hidden ih =>
      have hfirst := hhidden first List.mem_cons_self
      have hrest := ih fun other hmem => hhidden other (List.mem_cons_of_mem first hmem)
      cases hidden with
      | nil =>
          rw [List.cons_append, List.nil_append, visible, hfirst, decide_eq_true hdepth]
          exact hrest
      | cons second hidden =>
          rw [List.cons_append, List.cons_append, visible, hfirst, decide_eq_true hdepth]
          exact hrest

theorem depthAfter_opening {kind : TokenKind} {delimiter : Delimiter}
    (h : Delimiter.ofOpening? kind = some delimiter) (opened : List Delimiter) :
    depthAfter (opened.count .brace) kind = (delimiter :: opened).count .brace := by
  rw [Delimiter.opening_of_some h]
  cases delimiter <;> simp [Delimiter.opening, depthAfter]

theorem depthAfter_closing {kind : TokenKind} {delimiter : Delimiter}
    (h : Delimiter.ofClosing? kind = some delimiter) (outer : List Delimiter) :
    depthAfter ((delimiter :: outer).count .brace) kind = outer.count .brace := by
  rw [Delimiter.closing_of_some h]
  cases delimiter <;> simp [Delimiter.closing, depthAfter]

theorem depthAfter_plain {kind : TokenKind} (hopening : Delimiter.ofOpening? kind = none)
    (hclosing : Delimiter.ofClosing? kind = none) (depth : Nat) :
    depthAfter depth kind = depth := by
  unfold depthAfter
  split
  · cases hopening
  · cases hclosing
  · rfl

namespace Inside

theorem state_ended (h : Inside after opened state) : Ended state.ahead := by
  obtain ⟨front, hahead, _⟩ := h.ahead
  rw [hahead]
  exact (ended_append h.ended.ne_nil).mpr h.ended

/-- The current token belongs to the block. -/
theorem exists_visible (h : Inside after opened state) (hopened : opened ≠ []) :
    ∃ rest, state.visibleFrom 0 = state.token :: (rest ++ after) ∧
      Closes opened (state.token :: rest) ∧ state.token.kind.isLayout = false := by
  obtain ⟨front, hahead, hcloses⟩ := h.ahead
  obtain ⟨hidden, token, rest, rfl, hhidden, hplain, hrest⟩ := hcloses.exists_plain hopened
  have hdepth : 0 < state.braceDepth := h.depth ▸ hcloses.braces_pos hopened
  have hvisible : state.visibleFrom 0 = token :: (rest ++ after) := by
    rw [State.visibleFrom, hahead, List.append_assoc]
    exact visible_hidden hdepth hhidden hplain
  have htoken := State.token_of_visible hvisible
  exact ⟨rest, htoken ▸ hvisible, htoken ▸ hrest, htoken ▸ hplain⟩

theorem token_ne_eof (h : Inside after opened state) (hopened : opened ≠ []) :
    state.token.kind ≠ .eof := by
  obtain ⟨rest, _, hcloses, _⟩ := h.exists_visible hopened
  exact hcloses.head_ne_eof

/-- What stepping over the current token does to the groups that are open. -/
theorem advance (h : Inside after opened state) (hopened : opened ≠ []) :
    (∃ delimiter, Delimiter.ofOpening? state.token.kind = some delimiter ∧
      Inside after (delimiter :: opened) state.advance) ∨
    (∃ delimiter outer, Delimiter.ofClosing? state.token.kind = some delimiter ∧
      opened = delimiter :: outer ∧ Inside after outer state.advance) ∨
    (Delimiter.ofOpening? state.token.kind = none ∧ Delimiter.ofClosing? state.token.kind = none ∧
      Inside after opened state.advance) := by
  obtain ⟨rest, hvisible, hcloses, _⟩ := h.exists_visible hopened
  rw [State.advance_of_visible hvisible (h.token_ne_eof hopened)]
  generalize htoken : state.token = token at *
  cases hcloses with
  | plain hopening hclosing _ _ hrest =>
      exact .inr (.inr ⟨hopening, hclosing, ⟨rest, rfl, hrest⟩,
        (depthAfter_plain hopening hclosing _).trans h.depth, h.ended, h.nesting⟩)
  | @opening _ _ _ delimiter hopening _ hrest =>
      exact .inl ⟨delimiter, hopening, ⟨rest, rfl, hrest⟩,
        h.depth ▸ depthAfter_opening hopening opened, h.ended, h.nesting⟩
  | @closing outer _ _ delimiter hclosing _ hrest =>
      exact .inr (.inl ⟨delimiter, outer, hclosing, rfl, ⟨rest, rfl, hrest⟩,
        h.depth ▸ depthAfter_closing hclosing outer, h.ended, h.nesting⟩)

theorem advance_opening (h : Inside after opened state) (hopened : opened ≠ [])
    {delimiter : Delimiter} (hkind : Delimiter.ofOpening? state.token.kind = some delimiter) :
    Inside after (delimiter :: opened) state.advance := by
  obtain ⟨other, hother, hnext⟩ | ⟨_, _, hclosing, _, _⟩ | ⟨hother, _, _⟩ := h.advance hopened
  · rw [hkind] at hother
    cases hother
    exact hnext
  · rw [Delimiter.ofClosing?_of_opening hkind] at hclosing
    cases hclosing
  · rw [hkind] at hother
    cases hother

theorem advance_closing {outer : List Delimiter} {innermost delimiter : Delimiter}
    (h : Inside after (innermost :: outer) state)
    (hkind : Delimiter.ofClosing? state.token.kind = some delimiter) :
    delimiter = innermost ∧ Inside after outer state.advance := by
  obtain ⟨_, hopening, _⟩ | ⟨other, _, hother, hsplit, hnext⟩ | ⟨_, hother, _⟩ :=
    h.advance (List.cons_ne_nil _ _)
  · rw [Delimiter.ofClosing?_of_opening hopening] at hkind
    cases hkind
  · obtain ⟨rfl, rfl⟩ := List.cons.inj hsplit
    rw [hkind] at hother
    cases hother
    exact ⟨rfl, hnext⟩
  · rw [hkind] at hother
    cases hother

theorem advance_plain (h : Inside after opened state) (hopened : opened ≠ [])
    (hopening : Delimiter.ofOpening? state.token.kind = none)
    (hclosing : Delimiter.ofClosing? state.token.kind = none) :
    Inside after opened state.advance := by
  obtain ⟨_, hother, _⟩ | ⟨_, _, hother, _⟩ | ⟨_, _, hnext⟩ := h.advance hopened
  · rw [hopening] at hother
    cases hother
  · rw [hclosing] at hother
    cases hother
  · exact hnext

theorem same (h : Inside after opened state) (hsame : Same state next) :
    Inside after opened next :=
  ⟨hsame.ahead ▸ h.ahead, hsame.braceDepth ▸ h.depth, h.ended, hsame.nesting ▸ h.nesting⟩

end Inside

namespace Sheltered

theorem state_ended (h : Sheltered after state) : Ended state.ahead :=
  h.1.elim fun _ hinside => hinside.state_ended

theorem exists_inside (h : Sheltered after state) :
    ∃ opened, opened ≠ [] ∧ Inside after opened state := by
  obtain ⟨⟨opened, hinside⟩, hpos⟩ := h
  refine ⟨opened, ?_, hinside⟩
  rintro rfl
  rw [hinside.depth] at hpos
  contradiction

theorem within (h : Sheltered after state) : Within state.ahead.length state.nesting state :=
  ⟨h.state_ended, Nat.le_refl _, rfl, h.1.elim fun _ hinside => hinside.nesting⟩

theorem same (h : Sheltered after state) (hsame : Same state next) : Sheltered after next :=
  ⟨h.1.imp fun _ hinside => hinside.same hsame, hsame.braceDepth ▸ h.2⟩

end Sheltered

/-! ## What parsers lead to -/

section

variable {α β : Type} {context : Context} {starts starts' : Token → Prop}

/-- Wherever the parser comes to a result, the result and the state behind it are as said. -/
def Leads (p : Parser α) (context : Context) (state : State) (post : α → State → Prop) : Prop :=
  ∀ value next, p context state = .ok (value, next) → post value next

theorem Leads.mono {p : Parser α} {post weaker : α → State → Prop} (h : Leads p context state post)
    (himp : ∀ value next, post value next → weaker value next) : Leads p context state weaker :=
  fun value next hrun => himp value next (h value next hrun)

theorem leads_pure {value : α} {post : α → State → Prop} (h : post value state) :
    Leads (pure value) context state post := by
  intro _ _ hrun
  cases hrun
  exact h

theorem Leads.bind {p : Parser α} {f : α → Parser β} {between : α → State → Prop}
    {post : β → State → Prop} (hp : Leads p context state between)
    (hf : ∀ value next, between value next → Leads (f value) context next post) :
    Leads (p >>= f) context state post := by
  intro result last hrun
  have hreturns : Returns (p >>= f) context state fun value next => value = result ∧ next = last :=
    ⟨result, last, hrun, rfl, rfl⟩
  obtain ⟨value, next, hvalue, _, _, hrest, rfl, rfl⟩ := returns_bind.mp hreturns
  exact hf value next (hp value next hvalue) _ _ hrest

/-- A parser that is known to return leads where it returns to. -/
theorem Returns.leads {p : Parser α} {post : α → State → Prop} (h : Returns p context state post) :
    Leads p context state post := by
  intro value next hrun
  exact (returns_of_run hrun).mp h

theorem leads_current {f : Token → Parser β} {post : β → State → Prop} (hended : Ended state.ahead)
    (h : Leads (f state.token) context state post) : Leads (current >>= f) context state post := by
  have hcurrent : Returns current context state fun value next =>
      value = state.token ∧ next = state :=
    (returns_current hended).mpr ⟨rfl, rfl⟩
  refine hcurrent.leads.bind ?_
  rintro _ _ ⟨rfl, rfl⟩
  exact h

theorem leads_currentKind {f : TokenKind → Parser β} {post : β → State → Prop}
    (hended : Ended state.ahead) (h : Leads (f state.token.kind) context state post) :
    Leads (currentKind >>= f) context state post := by
  rw [currentKind, bind_assoc]
  exact leads_current hended h

theorem leads_advance {f : Unit → Parser β} {post : β → State → Prop} (hended : Ended state.ahead)
    (h : Leads (f ()) context state.advance post) :
    Leads (advance >>= f) context state post := by
  have hadvance : Returns advance context state fun _ next => next = state.advance :=
    (returns_advance hended).mpr rfl
  refine hadvance.leads.bind ?_
  rintro _ _ rfl
  exact h

theorem Leads.ite {c : Prop} [Decidable c] {p q : Parser α} {post : α → State → Prop}
    (hp : c → Leads p context state post) (hq : ¬c → Leads q context state post) :
    Leads (if c then p else q) context state post := by
  by_cases h : c
  · rw [if_pos h]
    exact hp h
  · rw [if_neg h]
    exact hq h

/-- A loop leads where its first turn leads, or the loop from there on. -/
theorem leads_iterate {step : β → Parser (ForInStep β)} {value : β} {post : β → State → Prop}
    (h : Leads (step value) context state fun result next =>
      match result with
      | .done value => post value next
      | .yield value => next.ahead.length < state.ahead.length →
          Leads (iterate value step) context next post) :
    Leads (iterate value step) context state post := by
  intro result last hrun
  have hreturns : Returns (iterate value step) context state
      fun value' next => value' = result ∧ next = last :=
    ⟨result, last, hrun, rfl, rfl⟩
  rw [returns_iterate] at hreturns
  obtain ⟨found, next, hstep, hnext⟩ := hreturns
  have hfound := h found next hstep
  cases found with
  | done value =>
      obtain ⟨rfl, rfl⟩ := hnext
      exact hfound
  | yield value =>
      obtain ⟨hshorter, _, _, hrest, rfl, rfl⟩ := hnext
      exact hfound hshorter _ _ hrest

/-- A loop leads where its last turn leads, if each turn keeps an invariant. -/
theorem Leads.iterate {step : β → Parser (ForInStep β)} {start : β}
    {post : β → State → Prop} (invariant : β → State → Prop) (hstart : invariant start state)
    (hturn : ∀ value state, invariant value state →
      Leads (step value) context state fun result next =>
        match result with
        | .done value => post value next
        | .yield value => invariant value next) :
    Leads (Parser.iterate start step) context state post := by
  induction hlength : state.ahead.length using Nat.strongRecOn generalizing start state
  case ind n ih =>
  refine leads_iterate ((hturn start state hstart).mono fun result next hnext => ?_)
  cases result with
  | done value => exact hnext
  | yield value => exact fun hshorter => ih next.ahead.length (hlength ▸ hshorter) hnext rfl

theorem leads_throw {fault : Fault} {post : α → State → Prop} :
    Leads (throw fault) context state post := by
  intro _ _ hrun
  cases hrun

/-! ## Parsers that dwell in a block -/

/-- The block has not been left, and no brace has been closed that was open before. -/
structure Climbs (after : List Token) (state next : State) : Prop where
  among : Among after next
  depth_le : state.braceDepth ≤ next.braceDepth
  depth_pos : 0 < next.braceDepth

theorem Climbs.sheltered (h : Climbs after state next) : Sheltered after next :=
  ⟨h.among, h.depth_pos⟩

theorem Climbs.refl (h : Sheltered after state) : Climbs after state state :=
  ⟨h.1, Nat.le_refl _, h.2⟩

theorem Climbs.trans {first second third : State} (h : Climbs after first second)
    (h' : Climbs after second third) : Climbs after first third :=
  ⟨h'.among, Nat.le_trans h.depth_le h'.depth_le, h'.depth_pos⟩

/-- From a token that it starts with, the parser does not leave the block, and closes no brace
that was open before. -/
def DwellsAt (starts : Token → Prop) (after : List Token) (p : Parser α) : Prop :=
  ∀ context state, Sheltered after state → starts state.token →
    Leads p context state fun _ next => Climbs after state next

abbrev Dwells (after : List Token) (p : Parser α) : Prop :=
  DwellsAt (fun _ => True) after p

theorem DwellsAt.weaken {p : Parser α} (h : DwellsAt starts after p)
    (himp : ∀ token, starts' token → starts token) : DwellsAt starts' after p :=
  fun context state hsheltered hstarts => h context state hsheltered (himp _ hstarts)

theorem DwellsAt.of_token {p : Parser α} (h : DwellsAt starts after p) {token : Token}
    (hstarts : starts token) : DwellsAt (· = token) after p :=
  h.weaken fun _ heq => heq ▸ hstarts

theorem Dwells.at {p : Parser α} (h : Dwells after p) : DwellsAt starts after p :=
  h.weaken fun _ _ => trivial

theorem DwellsAt.pure (value : α) : DwellsAt starts after (pure value : Parser α) :=
  fun _ _ hsheltered _ => leads_pure (.refl hsheltered)

theorem DwellsAt.bind {p : Parser α} {f : α → Parser β} (hp : DwellsAt starts after p)
    (hf : ∀ value, Dwells after (f value)) : DwellsAt starts after (p >>= f) := by
  intro context state hsheltered hstarts
  refine (hp context state hsheltered hstarts).bind fun value next hnext => ?_
  exact (hf value context next hnext.sheltered trivial).mono fun _ _ hlast => hnext.trans hlast

theorem DwellsAt.ite {c : Prop} [Decidable c] {p q : Parser α} (hp : c → DwellsAt starts after p)
    (hq : ¬c → DwellsAt starts after q) : DwellsAt starts after (if c then p else q) :=
  fun context state hsheltered hstarts =>
    .ite (fun h => hp h context state hsheltered hstarts) fun h =>
      hq h context state hsheltered hstarts

/-- What reads nothing leaves the current token to what comes behind it. -/
theorem DwellsAt.rest {p : Parser α} {f : α → Parser β}
    (hp : ∀ {bound depth}, Resting bound depth p) (hf : ∀ value, DwellsAt starts after (f value)) :
    DwellsAt starts after (p >>= f) := by
  intro context state hsheltered hstarts
  refine (hp context state hsheltered.within).leads.bind fun value next hsame => ?_
  have hnext := hsheltered.same hsame
  refine (hf value context next hnext (hsame.token ▸ hstarts)).mono fun _ _ hlast => ?_
  exact ⟨hlast.among, hsame.braceDepth ▸ hlast.depth_le, hlast.depth_pos⟩

theorem DwellsAt.of_resting {p : Parser α} (hp : ∀ {bound depth}, Resting bound depth p) :
    DwellsAt starts after p := by
  intro context state hsheltered _
  refine (hp context state hsheltered.within).leads.mono fun _ next hsame => ?_
  exact ⟨(hsheltered.same hsame).1, Nat.le_of_eq hsame.braceDepth.symm, (hsheltered.same hsame).2⟩

theorem DwellsAt.current {f : Token → Parser α}
    (hf : ∀ token, starts token → DwellsAt (· = token) after (f token)) :
    DwellsAt starts after (current >>= f) := by
  intro context state hsheltered hstarts
  exact leads_current hsheltered.state_ended (hf _ hstarts context _ hsheltered rfl)

theorem DwellsAt.currentKind {f : TokenKind → Parser α}
    (hf : ∀ token, starts token → DwellsAt (· = token) after (f token.kind)) :
    DwellsAt starts after (currentKind >>= f) := by
  rw [Parser.currentKind, bind_assoc]
  exact .current fun token htoken => hf token htoken

theorem DwellsAt.check {kind : TokenKind} {f : Bool → Parser α}
    (hf : ∀ token, starts token → DwellsAt (· = token) after (f (decide (token.kind = kind)))) :
    DwellsAt starts after (check kind >>= f) := by
  rw [Parser.check, bind_assoc]
  exact .currentKind fun token htoken => hf token htoken

end

end Parser
end SceneLang
