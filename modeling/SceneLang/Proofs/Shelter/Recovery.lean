import SceneLang.Proofs.Shelter.Dwelling
import SceneLang.Proofs.Parser.Recovery

/-!
# Recovery stays within a block

A step over a token that closes no brace stays in the block, and so does a step over a whole
group.  What skips tokens stops in front of a closing brace.
-/

namespace SceneLang
namespace Parser

variable {α β : Type} {after : List Token} {opened : List Delimiter} {context : Context}
  {state next : State} {starts : Token → Prop}

/-! ## Steps -/

/-- A closing brace closes one brace. -/
theorem Sheltered.advance_closing (h : Sheltered after state)
    (hbrace : state.token.kind = .rightBrace) :
    Among after state.advance ∧ state.braceDepth = state.advance.braceDepth + 1 := by
  obtain ⟨opened, hopened, hinside⟩ := h.exists_inside
  obtain ⟨innermost, outer, rfl⟩ := List.exists_cons_of_ne_nil hopened
  have hkind : Delimiter.ofClosing? state.token.kind = some .brace := by
    rw [hbrace]
    rfl
  obtain ⟨rfl, hnext⟩ := hinside.advance_closing hkind
  refine ⟨⟨outer, hnext⟩, ?_⟩
  rw [hinside.depth, hnext.depth, List.count_cons_self]

/-- Other tokens close none. -/
theorem Sheltered.advance (h : Sheltered after state) (hbrace : state.token.kind ≠ .rightBrace) :
    Climbs after state state.advance := by
  obtain ⟨opened, hopened, hinside⟩ := h.exists_inside
  have hclimbs {opened' : List Delimiter} (hnext : Inside after opened' state.advance)
      (hle : opened.count .brace ≤ opened'.count .brace) : Climbs after state state.advance := by
    have hdepth : state.braceDepth ≤ state.advance.braceDepth := by
      rwa [hinside.depth, hnext.depth]
    exact ⟨⟨opened', hnext⟩, hdepth, Nat.lt_of_lt_of_le h.2 hdepth⟩
  obtain ⟨delimiter, _, hnext⟩ | ⟨delimiter, outer, hkind, rfl, hnext⟩ | ⟨_, _, hnext⟩ :=
    hinside.advance hopened
  · exact hclimbs hnext List.count_le_count_cons
  · refine hclimbs hnext ?_
    have hother : delimiter ≠ .brace := by
      rintro rfl
      exact hbrace (Delimiter.closing_of_some hkind)
    exact Nat.le_of_eq (List.count_cons_of_ne hother)
  · exact hclimbs hnext (Nat.le_refl _)

/-- An opening brace opens one. -/
theorem Sheltered.advance_opening (h : Sheltered after state)
    (hbrace : state.token.kind = .leftBrace) :
    Sheltered after state.advance ∧ state.advance.braceDepth = state.braceDepth + 1 := by
  obtain ⟨opened, hopened, hinside⟩ := h.exists_inside
  have hkind : Delimiter.ofOpening? state.token.kind = some .brace := by
    rw [hbrace]
    rfl
  have hnext := hinside.advance_opening hopened hkind
  have hdepth : state.advance.braceDepth = state.braceDepth + 1 := by
    rw [hinside.depth, hnext.depth, List.count_cons_self]
  exact ⟨⟨⟨_, hnext⟩, hdepth ▸ Nat.succ_pos _⟩, hdepth⟩

theorem dwells_advance (hstarts : ∀ token, starts token → token.kind ≠ .rightBrace) :
    DwellsAt starts after advance := by
  intro context state hsheltered htoken
  have hadvance : Returns advance context state fun _ next => Climbs after state next :=
    (returns_advance hsheltered.state_ended).mpr (hsheltered.advance (hstarts _ htoken))
  exact hadvance.leads

/-- A step over a token of a known kind. -/
theorem dwells_advance_of {token : Token} (h : token.kind ≠ .rightBrace) :
    DwellsAt (· = token) after advance :=
  dwells_advance fun _ heq => heq ▸ h

theorem leads_eat {kind : TokenKind} {f : Bool → Parser β} {post : β → State → Prop}
    (hended : Ended state.ahead)
    (hfound : state.token.kind = kind → Leads (f true) context state.advance post)
    (hother : state.token.kind ≠ kind → Leads (f false) context state post) :
    Leads (eat kind >>= f) context state post := by
  rw [eat, check, bind_assoc, bind_assoc]
  refine leads_currentKind hended ?_
  by_cases hkind : state.token.kind = kind
  · simp only [pure_bind, decide_eq_true hkind, if_pos, bind_assoc]
    exact leads_advance hended (hfound hkind)
  · simp only [pure_bind, hkind, decide_false, Bool.false_eq_true, if_false]
    exact hother hkind

theorem DwellsAt.eat {kind : TokenKind} {f : Bool → Parser β} (hkind : kind ≠ .rightBrace)
    (hfound : Dwells after (f true))
    (hother : ∀ token, starts token → token.kind ≠ kind → DwellsAt (· = token) after (f false)) :
    DwellsAt starts after (eat kind >>= f) := by
  intro context state hsheltered hstarts
  refine leads_eat hsheltered.state_ended (fun htoken => ?_) fun htoken => ?_
  · have hclimbs := hsheltered.advance (htoken ▸ hkind)
    exact (hfound context _ hclimbs.sheltered trivial).mono fun _ _ hlast => hclimbs.trans hlast
  · exact hother _ hstarts htoken context state hsheltered rfl

theorem dwells_eat {kind : TokenKind} (hkind : kind ≠ .rightBrace) :
    DwellsAt starts after (eat kind) := by
  rw [← bind_pure (eat kind)]
  exact .eat hkind (.pure true) fun _ _ _ => .pure false

/-! ## Loops -/

theorem DwellsAt.iterate {step : β → Parser (ForInStep β)} {start : β}
    (hturn : ∀ value, Dwells after (step value)) :
    DwellsAt starts after (iterate start step) := by
  intro context state hsheltered _
  refine Leads.iterate (fun _ next => Climbs after state next) (.refl hsheltered) ?_
  intro value next hnext
  refine (hturn value context next hnext.sheltered trivial).mono fun result last hlast => ?_
  cases result <;> exact hnext.trans hlast

/-- Groups that are open within one that is to be closed, this one included. -/
structure Pending (delimiter : Delimiter) (depth : Nat) (inner : List Delimiter) : Prop where
  outermost : inner.getLast? = some delimiter
  count : inner.count delimiter = depth

namespace Pending

variable {delimiter first : Delimiter} {depth : Nat} {inner : List Delimiter}

theorem ne_nil (h : Pending delimiter depth inner) : inner ≠ [] := by
  rintro rfl
  cases h.outermost

theorem cons (h : Pending delimiter depth inner) (hother : first ≠ delimiter) :
    Pending delimiter depth (first :: inner) := by
  refine ⟨?_, (List.count_cons_of_ne hother).trans h.count⟩
  rw [List.getLast?_cons_of_ne_nil h.ne_nil]
  exact h.outermost

theorem cons_self (h : Pending delimiter depth inner) :
    Pending delimiter (depth + 1) (delimiter :: inner) := by
  refine ⟨?_, List.count_cons_self.trans (congrArg (· + 1) h.count)⟩
  rw [List.getLast?_cons_of_ne_nil h.ne_nil]
  exact h.outermost

theorem outermost_of_cons (h : Pending delimiter depth (first :: inner)) (hinner : inner ≠ []) :
    inner.getLast? = some delimiter := by
  have hlast := h.outermost
  rwa [List.getLast?_cons_of_ne_nil hinner] at hlast

theorem tail (h : Pending delimiter depth (first :: inner)) (hother : first ≠ delimiter) :
    Pending delimiter depth inner := by
  have hinner : inner ≠ [] := by
    rintro rfl
    cases h.outermost
    exact hother rfl
  exact ⟨h.outermost_of_cons hinner, (List.count_cons_of_ne hother).symm.trans h.count⟩

/-- The group itself is closed, or one that was opened in it. -/
theorem tail_self (h : Pending delimiter (depth + 1) (delimiter :: inner)) :
    depth = 0 ∧ inner = [] ∨ depth ≠ 0 ∧ Pending delimiter depth inner := by
  have hcount : inner.count delimiter = depth :=
    Nat.succ.inj (List.count_cons_self.symm.trans h.count)
  by_cases hinner : inner = []
  · subst hinner
    exact .inl ⟨hcount.symm, rfl⟩
  · have hlast := h.outermost_of_cons hinner
    have hpos : 0 < inner.count delimiter := List.count_pos_iff.mpr (List.mem_of_getLast? hlast)
    exact .inr ⟨by omega, hlast, hcount⟩

end Pending

theorem leads_closingTurn {delimiter : Delimiter} {depth : Nat} {inner : List Delimiter}
    (hinner : Pending delimiter depth inner) (h : Inside after (inner ++ opened) state) :
    Leads (closingTurn delimiter depth) context state fun result next =>
      match result with
      | .done _ => Inside after opened next
      | .yield depth =>
          ∃ inner, Pending delimiter depth inner ∧ Inside after (inner ++ opened) next := by
  have hne : inner ++ opened ≠ [] := List.append_ne_nil_of_left_ne_nil hinner.ne_nil opened
  refine leads_currentKind h.state_ended ?_
  rw [if_neg (h.token_ne_eof hne)]
  refine leads_advance h.state_ended ?_
  obtain ⟨first, hkind, hnext⟩ | ⟨first, outer, hkind, hsplit, hnext⟩ | ⟨hopening, hclosing, hnext⟩ :=
    h.advance hne
  · by_cases hfirst : first = delimiter
    · subst hfirst
      rw [if_pos (Delimiter.opening_of_some hkind)]
      exact leads_pure ⟨first :: inner, hinner.cons_self, hnext⟩
    · have hopen : state.token.kind ≠ delimiter.opening := by
        intro hopening
        rw [hopening, Delimiter.ofOpening?_opening] at hkind
        exact hfirst (Option.some.inj hkind).symm
      have hclose : state.token.kind ≠ delimiter.closing := by
        intro hclosing
        rw [hclosing] at hkind
        cases delimiter <;> cases hkind
      rw [if_neg hopen, if_neg hclose]
      exact leads_pure ⟨first :: inner, hinner.cons hfirst, hnext⟩
  · obtain ⟨inner, rfl, rfl⟩ : ∃ rest, inner = first :: rest ∧ outer = rest ++ opened := by
      cases inner with
      | nil => exact absurd rfl hinner.ne_nil
      | cons other rest =>
          obtain ⟨rfl, rfl⟩ := List.cons.inj hsplit
          exact ⟨rest, rfl, rfl⟩
    have hopen : state.token.kind ≠ delimiter.opening := by
      intro hopening
      rw [hopening] at hkind
      cases delimiter <;> cases hkind
    rw [if_neg hopen]
    by_cases hfirst : first = delimiter
    · subst hfirst
      rw [if_pos (Delimiter.closing_of_some hkind)]
      cases depth with
      | zero =>
          have hcount := hinner.count
          rw [List.count_cons_self] at hcount
          contradiction
      | succ depth =>
          change Leads (pure (if depth = 0 then ForInStep.done depth else .yield depth)) _ _ _
          apply leads_pure
          obtain ⟨hdepth, rfl⟩ | ⟨hdepth, hrest⟩ := hinner.tail_self
          · rw [if_pos hdepth]
            exact hnext
          · rw [if_neg hdepth]
            exact ⟨inner, hrest, hnext⟩
    · have hclose : state.token.kind ≠ delimiter.closing := by
        intro hclosing
        rw [hclosing, Delimiter.ofClosing?_closing] at hkind
        exact hfirst (Option.some.inj hkind).symm
      rw [if_neg hclose]
      exact leads_pure ⟨inner, hinner.tail hfirst, hnext⟩
  · have hopen : state.token.kind ≠ delimiter.opening := by
      intro hkind
      rw [hkind, Delimiter.ofOpening?_opening] at hopening
      cases hopening
    have hclose : state.token.kind ≠ delimiter.closing := by
      intro hkind
      rw [hkind, Delimiter.ofClosing?_closing] at hclosing
      cases hclosing
    rw [if_neg hopen, if_neg hclose]
    exact leads_pure ⟨inner, hinner, hnext⟩

/-- Skips one group whose opening has just been read, with all the groups in it. -/
theorem leads_skipToClosing {delimiter : Delimiter}
    (h : Inside after (delimiter :: opened) state) :
    Leads (skipToClosing delimiter) context state fun _ next => Inside after opened next := by
  refine Leads.bind (?_ : Leads _ _ _ fun _ next => Inside after opened next)
    fun _ _ hnext => leads_pure hnext
  refine Leads.iterate
    (fun depth state => ∃ inner, Pending delimiter depth inner ∧ Inside after (inner ++ opened) state)
    ⟨[delimiter], ⟨rfl, by simp⟩, h⟩ ?_
  rintro depth state ⟨inner, hinner, hinside⟩
  refine (leads_closingTurn hinner hinside).mono fun result _ hnext => ?_
  cases result <;> exact hnext

/-! ## Skipping -/

/-- What skips one token or a whole group closes no brace that was open before, unless it starts
with a closing brace. -/
theorem dwells_skipBalanced :
    DwellsAt (fun token => token.kind ≠ .rightBrace) after skipBalanced := by
  intro context state hsheltered hbrace
  obtain ⟨opened, hopened, hinside⟩ := hsheltered.exists_inside
  refine leads_currentKind hsheltered.state_ended ?_
  obtain ⟨delimiter, hkind, hnext⟩ | hother := hinside.advance hopened
  · rw [hkind]
    refine leads_advance hsheltered.state_ended ((leads_skipToClosing hnext).mono fun _ next h => ?_)
    have hdepth : state.braceDepth = next.braceDepth := hinside.depth.trans h.depth.symm
    exact ⟨⟨opened, h⟩, Nat.le_of_eq hdepth, hdepth ▸ hsheltered.2⟩
  · have hkind : Delimiter.ofOpening? state.token.kind = none := by
      obtain ⟨delimiter, outer, hclosing, _⟩ | ⟨hopening, _⟩ := hother
      · rw [Delimiter.closing_of_some hclosing]
        cases delimiter <;> rfl
      · exact hopening
    rw [hkind]
    exact leads_advance hsheltered.state_ended (leads_pure (hsheltered.advance hbrace))

/-- A test that reads nothing, and that a closing brace passes. -/
def Halts (after : List Token) (test : Parser Bool) : Prop :=
  ∀ context state, Sheltered after state → Returns test context state fun found next =>
    next = state ∧ (state.token.kind = .rightBrace → found = true)

theorem dwells_skipUntil {test : Parser Bool} (htest : Halts after test) :
    DwellsAt starts after (skipUntil test) := by
  refine DwellsAt.iterate fun _ => ?_
  intro context state hsheltered _
  refine (htest context state hsheltered).leads.bind ?_
  rintro found next ⟨hnext, hfound⟩
  subst hnext
  refine Leads.ite (fun _ => leads_pure (.refl hsheltered)) fun hother => ?_
  exact (dwells_skipBalanced.bind fun _ => .pure _) context _ hsheltered
    fun hbrace => hother (hfound hbrace)

theorem halts_of_kind (test : TokenKind → Bool) (h : test .rightBrace = true) :
    Halts after (do return test (← currentKind)) := by
  intro context state hsheltered
  rw [returns_bind, returns_currentKind hsheltered.state_ended, returns_pure]
  exact ⟨rfl, fun hbrace => hbrace ▸ h⟩

theorem halts_atSafePlace : Halts after atSafePlace := by
  intro context state hsheltered
  rw [atSafePlace, returns_bind, returns_current hsheltered.state_ended, returns_bind, returns_get,
    returns_pure]
  exact ⟨rfl, fun hbrace => by simp [hbrace, TokenKind.endsBlock]⟩

theorem dwells_synchronize : DwellsAt starts after synchronize := by
  refine .currentKind fun token _ => .ite (fun _ => .pure _) fun hends => ?_
  have hbrace : token.kind ≠ .rightBrace := by
    intro hkind
    rw [hkind] at hends
    exact hends rfl
  exact (dwells_skipBalanced.of_token hbrace).bind fun _ =>
    dwells_skipUntil halts_atSafePlace

theorem dwells_recoverInList : DwellsAt starts after recoverInList :=
  dwells_skipUntil (halts_of_kind (fun kind => kind = .comma || kind.isCloser) rfl)

theorem dwells_ifFailed {recover : Parser Unit} (hrecover : Dwells after recover) :
    DwellsAt starts after (ifFailed recover) :=
  .rest resting_valueFailed fun _ => .ite (fun _ => hrecover.at) fun _ => .pure _

theorem dwells_skipValue : DwellsAt starts after skipValue := by
  refine .currentKind fun token _ => .ite (fun _ => .pure _) fun hcloser => ?_
  have hbrace : token.kind ≠ .rightBrace := by
    intro hkind
    rw [hkind] at hcloser
    exact hcloser rfl
  exact (dwells_skipBalanced.of_token hbrace).bind fun _ => .pure _

/-! ## Nesting -/

theorem Sheltered.nesting (h : Sheltered after state) {levels : Nat} (hlevels : levels ≤ maxNesting) :
    Sheltered after { state with nesting := levels } :=
  ⟨h.1.imp fun _ hinside => ⟨hinside.ahead, hinside.depth, hinside.ended, hlevels⟩, h.2⟩

/-- At the limit of the nesting nothing has been read yet, and below it the nesting is one more
while the body is read. -/
theorem leads_deeper {refused body : Parser α} {post : α → State → Prop}
    (hwithin : Within state.ahead.length state.nesting state)
    (hrefused : ∀ next, Same state next → Leads refused context next post)
    (hbody : state.nesting < maxNesting →
      Leads body context { state with nesting := state.nesting + 1 } fun value next =>
        post value { next with nesting := next.nesting - 1 }) :
    Leads (deeper refused body) context state post := by
  intro value last hrun
  have hreturns : Returns (deeper refused body) context state
      fun value' last' => value' = value ∧ last' = last :=
    ⟨value, last, hrun, rfl, rfl⟩
  rw [deeper, returns_bind, enter, returns_bind, returns_get, returns_ite] at hreturns
  by_cases hlimit : maxNesting ≤ state.nesting
  · have hrefuse := hreturns.1 hlimit
    rw [returns_bind] at hrefuse
    simp only [returns_pure, Bool.false_eq_true, if_false] at hrefuse
    obtain ⟨_, next, hreport, _, _, hnext, rfl, rfl⟩ := hrefuse
    exact hrefused next ((resting_reportError _ _ context state hwithin).leads _ next hreport)
      _ _ hnext
  · have henter := hreturns.2 hlimit
    rw [returns_bind, returns_modify, returns_pure, if_pos rfl, returns_bind] at henter
    simp only [returns_bind, leave, returns_modify, returns_pure] at henter
    obtain ⟨value, next, hnext, rfl, rfl⟩ := henter
    exact hbody (Nat.lt_of_not_le hlimit) value next hnext

theorem dwells_deeper {refused body : Parser α} (hrefused : DwellsAt starts after refused)
    (hbody : DwellsAt starts after body) : DwellsAt starts after (deeper refused body) := by
  intro context state hsheltered hstarts
  refine leads_deeper hsheltered.within (fun next hsame => ?_) fun hlimit => ?_
  · refine (hrefused context next (hsheltered.same hsame) (hsame.token ▸ hstarts)).mono
      fun _ _ hlast => ?_
    exact ⟨hlast.among, hsame.braceDepth ▸ hlast.depth_le, hlast.depth_pos⟩
  · refine (hbody context _ (hsheltered.nesting hlimit) hstarts).mono fun _ next hlast => ?_
    have hleft := hlast.sheltered.nesting
      (Nat.le_trans (Nat.sub_le next.nesting 1) hlast.sheltered.within.depth_le)
    exact ⟨hleft.1, hlast.depth_le, hleft.2⟩

end Parser
end SceneLang
