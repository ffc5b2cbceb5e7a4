import SceneLang.Proofs.Parser.Steady

/-!
# Notes and skips keep the cursor going forward

What a parser notes down leaves the cursor where it is.  A skip steps over one token at
least, unless it is at a place where it has to stop, and it always stops at the end.
-/

namespace SceneLang
namespace Parser

variable {α : Type} {bound depth : Nat} {context : Context} {state : State}

/-! ## Looks and notes -/

theorem resting_current : Resting bound depth current := by
  intro context state hwithin
  exact (returns_current hwithin.ended).mpr (.refl state)

theorem resting_peek (n : Nat) : Resting bound depth (peek n) := by
  intro context state hwithin
  exact (returns_peek hwithin.ended).mpr (.refl state)

theorem resting_peekKind (n : Nat) : Resting bound depth (peekKind n) := by
  intro context state hwithin
  exact (returns_peekKind hwithin.ended).mpr (.refl state)

theorem resting_currentKind : Resting bound depth currentKind := by
  intro context state hwithin
  exact (returns_currentKind hwithin.ended).mpr (.refl state)

theorem resting_check (kind : TokenKind) : Resting bound depth (check kind) := by
  intro context state hwithin
  exact (returns_check hwithin.ended).mpr (.refl state)

theorem resting_get : Resting bound depth (get : Parser State) := by
  intro context state _
  exact returns_get.mpr (.refl state)

theorem resting_read : Resting bound depth (read : Parser Context) := by
  intro context state _
  exact returns_read.mpr (.refl state)

theorem resting_previousSpan : Resting bound depth previousSpan :=
  resting_get.bind fun _ => .pure _

theorem resting_previousLine : Resting bound depth previousLine :=
  resting_get.bind fun _ => .pure _

theorem resting_startPosition : Resting bound depth startPosition :=
  resting_current.bind fun _ => .pure _

theorem resting_endPosition : Resting bound depth endPosition := by
  apply resting_get.bind
  intro now
  cases now.previous with
  | none => exact .pure _
  | some token => exact resting_read.bind fun _ => .pure _

theorem resting_locationFrom (start : Position) : Resting bound depth (locationFrom start) :=
  resting_endPosition.bind fun _ => .pure _

theorem resting_sliceBetween (start stop : Nat) : Resting bound depth (sliceBetween start stop) :=
  resting_read.bind fun _ => .pure _

theorem resting_report (d : Diagnostic) : Resting bound depth (report d) :=
  .modify fun state => ⟨rfl, rfl, rfl, .single (.report state d)⟩

theorem resting_reportError (code : Code) (message : String) :
    Resting bound depth (reportError code message) :=
  resting_current.bind fun _ => resting_report _

theorem resting_unexpected (place : String) : Resting bound depth (unexpected place) :=
  resting_current.bind fun _ => resting_reportError _ _

theorem resting_reportUnterminated (token : Token) :
    Resting bound depth (reportUnterminated token) :=
  resting_read.bind fun _ => resting_report _

theorem resting_reportUnclosed (opening : Token) : Resting bound depth (reportUnclosed opening) :=
  resting_previousSpan.bind fun _ => resting_endPosition.bind fun _ => resting_report _

theorem resting_valueFailed : Resting bound depth valueFailed :=
  resting_get.bind fun _ => .pure _

theorem resting_setValueFailed (failed : Bool) : Resting bound depth (setValueFailed failed) :=
  .modify fun state => ⟨rfl, rfl, rfl, .single (.valueFailed state failed)⟩

theorem returns_use (feature : Feature) (state : State) :
    Returns (use feature) context state fun _ next => Same state next := by
  apply returns_modify.mpr
  split
  · exact .refl state
  · exact ⟨rfl, rfl, rfl, .single (.use state feature)⟩

theorem resting_use (feature : Feature) : Resting bound depth (use feature) :=
  fun _ state _ => returns_use feature state

/-! ## Steps and skips -/

theorem steady_advance : Steady bound depth advance := by
  intro context state hwithin
  exact (returns_advance hwithin.ended).mpr (advance_keeps hwithin.ended)

theorem reading_advance : Reading (· ≠ .eof) bound depth advance := by
  intro context state hwithin htoken
  exact (returns_advance hwithin.ended).mpr (advance_reads hwithin.ended htoken)

theorem steady_eat (kind : TokenKind) : Steady bound depth (eat kind) := by
  intro context state hwithin
  apply (returns_eat hwithin.ended).mpr
  constructor
  · intro _
    exact advance_keeps hwithin.ended
  · intro _
    exact .refl state

theorem returns_lower {count : Nat} {post : Nat → State → Prop} (h : 0 < count) :
    Returns (lower count) context state post ↔ post (count - 1) state := by
  cases count with
  | zero => contradiction
  | succ count => exact returns_pure

/-- As long as the loop goes on a group is open, so that the count can be lowered. -/
theorem returns_closingTurn {delimiter : Delimiter} {groups : Nat} (hpos : 0 < groups)
    (hwithin : Within bound depth state) :
    Returns (closingTurn delimiter groups) context state fun result next =>
      match result with
      | .done _ => Keeps state next
      | .yield groups => 0 < groups ∧ Reads state next := by
  rw [closingTurn, returns_bind, returns_currentKind hwithin.ended, returns_ite]
  constructor
  · intro _
    exact returns_pure.mpr (.refl state)
  intro heof
  have hreads := advance_reads hwithin.ended heof
  rw [returns_bind, returns_advance hwithin.ended, returns_ite]
  constructor
  · intro _
    exact returns_pure.mpr ⟨Nat.succ_pos groups, hreads⟩
  intro _
  rw [returns_ite]
  refine ⟨fun _ => ?_, fun _ => returns_pure.mpr ⟨hpos, hreads⟩⟩
  rw [returns_bind, returns_lower hpos, returns_pure]
  by_cases hlast : groups - 1 = 0
  · rw [if_pos hlast]
    exact hreads.toKeeps
  · rw [if_neg hlast]
    exact ⟨Nat.pos_of_ne_zero hlast, hreads⟩

theorem steady_skipToClosing (delimiter : Delimiter) :
    Steady bound depth (skipToClosing delimiter) := by
  intro context state hwithin
  rw [skipToClosing, returns_bind]
  have hloop : Returns (iterate 1 (closingTurn delimiter)) context state
      fun _ next => Keeps state next := by
    refine Returns.iterate (fun groups next => 0 < groups ∧ Keeps state next)
      ⟨Nat.one_pos, .refl state⟩ ?_
    rintro groups next ⟨hpos, hkeeps⟩
    apply (returns_closingTurn hpos (hwithin.keeps hkeeps)).mono
    intro result last hlast
    cases result with
    | done groups => exact hkeeps.trans hlast
    | yield groups => exact ⟨⟨hlast.1, (hkeeps.reads hlast.2).toKeeps⟩, hlast.2.shorter⟩
  apply hloop.mono
  intro groups next hkeeps
  exact returns_pure.mpr hkeeps

theorem reading_skipBalanced : Reading (· ≠ .eof) bound depth skipBalanced := by
  intro context state hwithin htoken
  have hreads := advance_reads hwithin.ended htoken
  rw [skipBalanced, returns_bind, returns_currentKind hwithin.ended]
  cases Delimiter.ofOpening? state.token.kind with
  | none =>
      rw [returns_bind, returns_advance hwithin.ended, returns_pure]
      exact hreads
  | some delimiter =>
      rw [returns_bind, returns_advance hwithin.ended]
      exact (steady_skipToClosing delimiter).after_reads (hwithin.keeps hreads.toKeeps) hreads

theorem steady_skipBalanced : Steady bound depth skipBalanced := by
  intro context state hwithin
  by_cases htoken : state.token.kind = .eof
  · rw [skipBalanced, returns_bind, returns_currentKind hwithin.ended, htoken]
    exact (steady_advance.bind fun _ => .pure true) context state hwithin
  · exact (reading_skipBalanced context state hwithin htoken).mono fun _ _ h => h.toKeeps

/-- A test that only looks, and that holds at the end. -/
def Stops (bound depth : Nat) (test : Parser Bool) : Prop :=
  ∀ context state, Within bound depth state →
    Returns test context state fun answer next =>
      next = state ∧ (state.token.kind = .eof → answer = true)

theorem turning_skipTurn {test : Parser Bool} (htest : Stops bound depth test) :
    Turning bound depth (skipTurn test) := by
  intro context state hwithin
  rw [skipTurn, returns_bind]
  apply (htest context state hwithin).mono
  rintro answer next ⟨rfl, heof⟩
  cases answer with
  | true => exact returns_pure.mpr (Keeps.refl next)
  | false =>
      have htoken : next.token.kind ≠ .eof := fun hkind => Bool.noConfusion (heof hkind)
      exact (reading_skipBalanced.bind fun _ => .pure _).turn hwithin htoken

theorem steady_skipUntil {test : Parser Bool} (htest : Stops bound depth test) :
    Steady bound depth (skipUntil test) :=
  .iterate fun _ => turning_skipTurn htest

theorem skipUntil_reads {test : Parser Bool} (htest : Stops bound depth test)
    (hwithin : Within bound depth state)
    (hgoes : Returns test context state fun answer next => next = state ∧ answer = false) :
    Returns (skipUntil test) context state fun _ next => Reads state next := by
  apply Returns.iterate (fun _ next => next = state ∨ Reads state next) (.inl rfl)
  intro _ next hnext
  have hkeeps : Keeps state next := by
    rcases hnext with rfl | hreads
    · exact .refl next
    · exact hreads.toKeeps
  obtain ⟨answer, same, hrun, rfl, heof⟩ := htest context next (hwithin.keeps hkeeps)
  refine returns_bind.mpr ⟨answer, same, hrun, ?_⟩
  cases answer with
  | true =>
      rcases hnext with rfl | hreads
      · obtain ⟨answer, _, hrun', rfl, rfl⟩ := hgoes
        rw [hrun'] at hrun
        cases hrun
      · exact returns_pure.mpr hreads
  | false =>
      have htoken : same.token.kind ≠ .eof := fun hkind => Bool.noConfusion (heof hkind)
      apply Returns.bind (reading_skipBalanced context same (hwithin.keeps hkeeps) htoken)
      intro _ last hreads
      exact returns_pure.mpr ⟨.inr (hkeeps.reads hreads), hreads.shorter⟩

theorem stops_atSafePlace : Stops bound depth atSafePlace := by
  intro context state hwithin
  rw [atSafePlace, returns_bind, returns_current hwithin.ended, returns_bind, returns_get,
    returns_pure]
  exact ⟨rfl, fun heof => by simp [heof, TokenKind.endsBlock]⟩

theorem steady_synchronize : Steady bound depth synchronize := by
  apply resting_currentKind.steady.bind
  intro kind
  apply Steady.ite (.pure ())
  exact steady_skipBalanced.bind fun _ => steady_skipUntil stops_atSafePlace

theorem endsBlock_eq_false {kind : TokenKind} (hbrace : kind ≠ .rightBrace)
    (heof : kind ≠ .eof) : kind.endsBlock = false := by
  cases kind <;> first | rfl | contradiction

theorem reading_synchronize : Reading (·.endsBlock = false) bound depth synchronize := by
  intro context state hwithin htoken
  have heof : state.token.kind ≠ .eof := by
    intro hkind
    simp [hkind, TokenKind.endsBlock] at htoken
  rw [synchronize, returns_bind, returns_currentKind hwithin.ended, htoken]
  apply Returns.bind (reading_skipBalanced context state hwithin heof)
  intro _ next hreads
  exact (steady_skipUntil stops_atSafePlace).after_reads (hwithin.keeps hreads.toKeeps) hreads

theorem stops_atListEnd : Stops bound depth atListEnd := by
  intro context state hwithin
  rw [atListEnd, returns_bind, returns_currentKind hwithin.ended, returns_pure]
  exact ⟨rfl, fun heof => by simp [heof, TokenKind.isCloser]⟩

theorem steady_recoverInList : Steady bound depth recoverInList :=
  steady_skipUntil stops_atListEnd

theorem reading_recoverInList :
    Reading (fun kind => kind ≠ .comma ∧ kind.isCloser = false) bound depth recoverInList := by
  rintro context state hwithin ⟨hcomma, hcloser⟩
  apply skipUntil_reads stops_atListEnd hwithin
  rw [atListEnd, returns_bind, returns_currentKind hwithin.ended, returns_pure]
  exact ⟨rfl, by simp [hcomma, hcloser]⟩

theorem steady_skipValue : Steady bound depth skipValue := by
  apply resting_currentKind.steady.bind
  intro kind
  apply Steady.ite (.pure ())
  exact steady_skipBalanced.bind fun _ => .pure ()

end Parser
end SceneLang

namespace SceneLang
namespace Parser

/-! ## Blocks keep the cursor going forward

The items of a block stand behind its opening brace, so one token less is ahead of them.  An
item that reads nothing is at a token that the loop of the block steps over.
-/

variable {α β : Type} {bound depth : Nat} {context : Context} {state : State}

theorem steady_expectName (what : String) : Steady bound depth (expectName what) := by
  apply resting_current.steady.bind
  intro token
  split
  · exact steady_advance.bind fun _ => .pure _
  · exact steady_advance.bind fun _ => .pure _
  · exact (resting_reportUnterminated token).steady.bind fun _ =>
      steady_advance.bind fun _ => .pure _
  · exact (resting_unexpected _).steady.bind fun _ => .pure _

/-! ## Blocks in braces -/

/-- An item that stands still is at a token that a block does not end with, and is stepped
over. -/
theorem turn_bracedItem {item : Parser β} (hitem : Steady bound depth item)
    (hwithin : Within bound depth state) (hends : state.token.kind.endsBlock = false) :
    Returns (bracedItem item) context state (Turn state) := by
  rw [bracedItem, returns_bind, returns_get, returns_bind]
  apply (hitem context state hwithin).mono
  intro value next hkeeps
  have hnext := hwithin.keeps hkeeps
  rw [returns_bind, returns_get, returns_ite]
  constructor
  · intro hlength
    have htoken := hkeeps.moved.token_eq (Nat.le_of_eq hlength.symm)
    have heof : next.token.kind ≠ .eof := by
      intro heof
      rw [htoken] at heof
      simp [heof, TokenKind.endsBlock] at hends
    rw [returns_bind, returns_currentKind hnext.ended, htoken, hends, if_neg Bool.false_ne_true,
      returns_bind, returns_advance hnext.ended, returns_pure]
    exact hkeeps.reads (advance_reads hnext.ended heof)
  · intro hlength
    exact returns_pure.mpr ⟨hkeeps, Nat.lt_of_le_of_ne hkeeps.moved.length_le hlength⟩

theorem turning_bracedTurn {opening : Token} {item : β → Parser β}
    (hitem : ∀ value, Steady bound depth (item value)) (value : β) :
    Turning bound depth (bracedTurn opening item value) := by
  intro context state hwithin
  rw [bracedTurn, returns_bind, returns_currentKind hwithin.ended]
  split
  next hkind => exact (reading_advance.bind fun _ => .pure _).turn hwithin (by simp [hkind])
  next =>
    exact (resting_reportUnclosed _).steady.turning (fun _ => .done value) context state hwithin
  next hkind => exact (reading_advance.bind fun _ => .pure _).turn hwithin (by simp [hkind])
  next hkind => exact (reading_advance.bind fun _ => .pure _).turn hwithin (by simp [hkind])
  next hbrace heof _ _ =>
    exact turn_bracedItem (hitem value) hwithin (endsBlock_eq_false hbrace heof)

theorem steady_braced {start : β} {item : β → Parser β}
    (hitem : ∀ value, Steady bound depth (item value)) :
    Steady (bound + 1) depth (braced start item) := by
  intro context state hwithin
  rw [braced, returns_bind, returns_current hwithin.ended, returns_bind,
    returns_eat hwithin.ended]
  constructor
  · intro hkind
    have hreads := advance_reads hwithin.ended (by simp [hkind])
    have hloop : Steady bound depth (iterate start (bracedTurn state.token item)) :=
      .iterate (turning_bracedTurn hitem)
    exact hloop.after_keeps (hwithin.reads hreads) hreads.toKeeps
  · intro _
    exact ((resting_unexpected _).steady.bind fun _ => .pure start) context state hwithin

/-- Whether or not there is a block, the parser of its items has nothing to fear. -/
theorem Steady.braced {start : β} {item : β → Parser β}
    (hitem : ∀ value, Steady bound depth (item value)) :
    Steady bound depth (Parser.braced start item) :=
  (steady_braced hitem).of_le (Nat.le_succ bound)

theorem steady_captureBlock : Steady bound depth captureBlock := by
  apply resting_current.steady.bind
  intro opening
  apply Steady.ite
  · apply steady_skipBalanced.bind
    intro closed
    cases closed with
    | true =>
        exact resting_previousSpan.steady.bind fun _ =>
          (resting_sliceBetween _ _).steady.bind fun _ => .pure _
    | false =>
        exact (resting_reportUnclosed opening).steady.bind fun _ =>
          resting_read.steady.bind fun _ =>
            (resting_sliceBetween _ _).steady.bind fun _ => .pure _
  · exact (resting_unexpected _).steady.bind fun _ => .pure none

theorem steady_blockText : Steady bound depth blockText :=
  steady_captureBlock.bind fun _ => .pure _

/-! ## Parameters in parentheses -/

theorem turning_paramListTurn (params : List String) :
    Turning bound depth (paramListTurn params) := by
  intro context state hwithin
  rw [paramListTurn, returns_bind, returns_current hwithin.ended]
  split
  next hkind => exact (reading_advance.bind fun _ => .pure _).turn hwithin (by simp [hkind])
  next hkind => exact (reading_advance.bind fun _ => .pure _).turn hwithin (by simp [hkind])
  next hkind =>
    refine (reading_advance.bind fun _ => ?_).turn hwithin (by simp [hkind])
    exact resting_current.steady.bind fun _ =>
      .ite (steady_advance.bind fun _ => .pure _) (.pure _)
  next hkind => exact (reading_advance.bind fun _ => .pure _).turn hwithin (by simp [hkind])
  next =>
    exact (resting_unexpected _).steady.turning (fun _ =>
      (steady_skipToClosing _).turning fun _ => .done params) context state hwithin

theorem steady_paramList : Steady bound depth paramList := by
  apply (steady_eat .leftParen).bind
  intro opened
  refine Steady.ite ?_ (.pure [])
  exact Steady.bind (.iterate turning_paramListTurn) fun _ => .pure _

end Parser
end SceneLang
