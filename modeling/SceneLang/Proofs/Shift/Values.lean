import SceneLang.Proofs.Shift.Steps

/-!
# Blocks and values that follow each other

Names, blocks and values are read to the same further down.  Where interpolations have been
counted before, the new ones have higher numbers.
-/

namespace SceneLang
namespace Parser

open Movable (move)
open Fixed (move_eq)

variable {α β : Type} {bond : Bond} {i j k : Stage} {shift : Shift}

/-! ## Names and blocks -/

theorem follows_expectName (what : String) :
    Follows bond .within .within (expectName what) (expectName what) := by
  refine follows_current.bind fun token => ?_
  rw [kind_move]
  split
  · exact follows_advance.andThen fun _ => .pure rfl
  · exact follows_advance.andThen fun _ => .pure rfl
  · exact (follows_reportUnterminated token).andThen fun _ =>
      follows_advance.andThen fun _ => .pure rfl
  · exact (follows_unexpected _).andThen fun _ => .pure rfl

section

variable {R : β → β → Prop}

theorem follows_bracedItem {item item' : Parser β}
    (hitem : FollowsBy bond .within .within R item item') :
    FollowsBy bond .within .within (StepBy R) (bracedItem item) (bracedItem item') := by
  refine .get fun state back _ hlength => hitem.bindBy fun value value' hvalue => ?_
  refine .get fun next next' _ hlength' => ?_
  rw [hlength, hlength']
  refine FollowsBy.ite Iff.rfl (fun _ => ?_) fun _ => .pure (.yield hvalue)
  refine follows_currentKind.andThen fun kind => ?_
  refine .ite Iff.rfl (fun _ => .pure (.yield hvalue)) fun _ => ?_
  exact follows_advance.andThen fun _ => .pure (.yield hvalue)

theorem follows_bracedTurn {opening : Token} {item item' : β → Parser β}
    (hitem : ∀ value value', R value value' →
      FollowsBy bond .within .within R (item value) (item' value')) {value value' : β}
    (hvalue : R value value') :
    FollowsBy bond .within .within (StepBy R) (bracedTurn (move bond.shift opening) item value)
      (bracedTurn opening item' value') := by
  refine follows_currentKind.andThen fun kind => ?_
  split
  · exact follows_advance.andThen fun _ => .pure (.done hvalue)
  · exact (follows_reportUnclosed opening).andThen fun _ => .pure (.done hvalue)
  · exact follows_advance.andThen fun _ => .pure (.yield hvalue)
  · exact follows_advance.andThen fun _ => .pure (.yield hvalue)
  · exact follows_bracedItem (hitem value value' hvalue)

theorem follows_braced {start start' : β} {item item' : β → Parser β} (hstart : R start start')
    (hitem : ∀ value value', R value value' →
      FollowsBy bond .within .within R (item value) (item' value')) :
    FollowsBy bond .within .within R (braced start item) (braced start' item') := by
  refine follows_current.bind fun opening => (follows_eat _).andThen fun found => ?_
  refine .ite Iff.rfl (fun _ => ?_) fun _ => ?_
  · exact .iterateBy hstart fun _ _ hvalue => follows_bracedTurn hitem hvalue
  · exact (follows_unexpected _).andThen fun _ => .pure hstart

end

theorem follows_captureBlock : Follows bond .within .within captureBlock captureBlock := by
  refine follows_current.bind fun opening => .ite Iff.rfl (fun _ => ?_) fun _ => ?_
  · refine follows_skipBalanced.andThen fun closed => ?_
    split
    · refine follows_previousSpan.bind fun span => ?_
      exact (follows_sliceBetween _ _).andThen fun text => .pure rfl
    · refine (follows_reportUnclosed opening).andThen fun _ => ?_
      refine .read fun context other _ hlength => ?_
      rw [hlength]
      exact (follows_sliceBetween _ _).andThen fun text => .pure rfl
  · exact (follows_unexpected _).andThen fun _ => .pure rfl

theorem follows_blockText : Follows bond .within .within blockText blockText :=
  follows_captureBlock.andThen fun _ => .pure rfl

theorem follows_paramListTurn (params : List String) :
    Follows bond .within .within (paramListTurn params) (paramListTurn params) := by
  have hmove (result : List String) : result = move bond.shift result := (move_eq _ _).symm
  refine follows_current.bind fun token => ?_
  rw [kind_move]
  split
  · exact follows_advance.andThen fun _ => .pure (congrArg ForInStep.done (hmove _))
  · exact follows_advance.andThen fun _ => .pure (congrArg ForInStep.yield (hmove _))
  · refine follows_advance.andThen fun _ => follows_current.bind fun token => ?_
    refine .ite Iff.rfl (fun _ => ?_) fun _ => .pure (congrArg ForInStep.yield (hmove _))
    exact follows_advance.andThen fun _ => .pure (congrArg ForInStep.yield (hmove _))
  · exact follows_advance.andThen fun _ => .pure (congrArg ForInStep.yield (hmove _))
  · exact (follows_unexpected _).andThen fun _ => (follows_skipToClosing _).andThen fun _ =>
      .pure (congrArg ForInStep.done (hmove _))

theorem follows_paramList : Follows bond .within .within paramList paramList := by
  refine (follows_eat _).andThen fun found => .ite Iff.rfl (fun _ => ?_) fun _ => .pure rfl
  refine FollowsBy.andThen (.iterate rfl fun params => ?_) fun params => .pure (move_eq _ _).symm
  rw [move_eq]
  exact follows_paramListTurn params

/-! ## Lists and objects -/

theorem follows_expectClosing (delimiter : Delimiter) :
    Follows bond .within .within (expectClosing delimiter) (expectClosing delimiter) := by
  refine (follows_eat _).andThen fun closed => .ite Iff.rfl (fun _ => .pure rfl) fun _ => ?_
  exact (follows_unexpected _).andThen fun _ => follows_setValueFailed true

theorem follows_chain {operator? : TokenKind → Option BinaryOp} {operand : Parser Value}
    (hoperand : Follows bond .within .within operand operand) :
    Follows bond .within .within (chain operator? operand) (chain operator? operand) := by
  refine hoperand.bind fun left => .iterate rfl fun left => ?_
  refine follows_currentKind.andThen fun kind => ?_
  split
  · exact .pure rfl
  · exact follows_advance.andThen fun _ => hoperand.bind fun _ => .pure rfl

section

variable {inner : Inner}
  (hinner : ∀ strength, Follows bond .within .within (inner strength) (inner strength))
include hinner

theorem follows_sequenceItem :
    Follows bond .within .within (sequenceItem inner) (sequenceItem inner) := by
  refine (follows_eat _).andThen fun found => .ite Iff.rfl (fun _ => ?_) fun _ => hinner .any
  exact (follows_use _).andThen fun _ => (hinner .any).bind fun _ => .pure rfl

omit hinner in
theorem follows_sequenceNext (delimiter : Delimiter) (items : List Value) :
    Follows bond .within .within (sequenceNext delimiter (move bond.shift items))
      (sequenceNext delimiter items) := by
  refine (follows_eat _).andThen fun found => .ite Iff.rfl (fun _ => .pure rfl) fun _ => ?_
  refine (follows_check _).andThen fun found => .ite Iff.rfl (fun _ => .pure rfl) fun _ => ?_
  exact (follows_expectClosing delimiter).andThen fun _ => .pure rfl

theorem follows_sequence (delimiter : Delimiter) :
    Follows bond .within .within (sequence inner delimiter) (sequence inner delimiter) := by
  refine FollowsBy.bind (.iterate rfl ?_) ?_
  · rintro ⟨items, closed⟩
    refine (follows_eat _).andThen fun found => .ite Iff.rfl (fun _ => .pure rfl) fun _ => ?_
    refine follows_currentKind.andThen fun kind => .ite Iff.rfl (fun _ => ?_) fun _ => ?_
    · exact (follows_expectClosing delimiter).andThen fun _ => .pure rfl
    · exact (follows_setValueFailed false).andThen fun _ =>
        (follows_sequenceItem hinner).bind fun _ =>
          (follows_ifFailed follows_recoverInList).andThen fun _ => follows_sequenceNext _ (_ :: items)
  · rintro ⟨items, closed⟩
    have hitems : (move bond.shift items).reverse = move bond.shift items.reverse :=
      (move_reverse _ _).symm
    refine .ite Iff.rfl (fun _ => ?_) fun _ => .pure hitems
    exact (follows_setValueFailed false).andThen fun _ => .pure hitems

theorem follows_fieldValue (key : Token) :
    Follows bond .within .within (fieldValue inner (move bond.shift key))
      (fieldValue inner key) := by
  refine follows_currentKind.andThen fun kind => .ite Iff.rfl (fun _ => ?_) fun _ => ?_
  · exact follows_advance.andThen fun _ => hinner .any
  refine .ite Iff.rfl (fun _ => .pure rfl) fun _ => ?_
  exact (follows_report_of rfl).andThen fun _ => hinner .any

omit hinner in
theorem follows_strayEntry : Follows bond .within .within strayEntry strayEntry := by
  refine follows_currentKind.andThen fun kind => (follows_unexpected _).andThen fun _ => ?_
  refine (follows_setValueFailed true).andThen fun _ => ?_
  refine .ite Iff.rfl (fun _ => ?_) fun _ => ?_
  · exact follows_advance.andThen fun _ => follows_recoverInList
  · exact follows_skipValue.andThen fun _ => follows_recoverInList

omit hinner in
theorem follows_reportOpenObject (opening last : Token) :
    Follows bond .within .within
      (reportOpenObject (move bond.shift opening) (move bond.shift last))
      (reportOpenObject opening last) :=
  follows_endPosition.bind fun _ => follows_report_of rfl

theorem follows_objectTurn (opening : Token) (entries : List ObjectEntry) :
    Follows bond .within .within
      (objectTurn inner (move bond.shift opening) (move bond.shift entries))
      (objectTurn inner opening entries) := by
  have hfield (key : Token) : Follows bond .within .within
      (do
        let value ← fieldValue inner (move bond.shift key)
        ifFailed recoverInList
        return ForInStep.yield (.field key.text value :: move bond.shift entries, false))
      (do
        let value ← fieldValue inner key
        ifFailed recoverInList
        return ForInStep.yield (.field key.text value :: entries, false)) :=
    (follows_fieldValue hinner key).bind fun _ =>
      (follows_ifFailed follows_recoverInList).andThen fun _ => .pure rfl
  refine follows_current.bind fun token => ?_
  rw [kind_move]
  split
  · exact follows_advance.andThen fun _ => .pure rfl
  · exact (follows_reportOpenObject opening token).andThen fun _ =>
      (follows_setValueFailed true).andThen fun _ => .pure rfl
  · exact follows_advance.andThen fun _ => .pure rfl
  · exact follows_advance.andThen fun _ => .pure rfl
  · exact follows_advance.andThen fun _ => (follows_use _).andThen fun _ =>
      (hinner .any).bind fun _ =>
        (follows_ifFailed follows_recoverInList).andThen fun _ => .pure rfl
  · exact follows_advance.andThen fun _ => hfield token
  · exact follows_advance.andThen fun _ => hfield token
  · exact follows_advance.andThen fun _ => hfield token
  · exact follows_advance.andThen fun _ => hfield token
  · exact follows_advance.andThen fun _ => hfield token
  · exact follows_strayEntry.andThen fun _ => .pure rfl

theorem follows_objectEntries :
    Follows bond .within .within (objectEntries inner) (objectEntries inner) := by
  refine follows_current.bind fun opening => follows_advance.andThen fun _ => ?_
  refine FollowsBy.bind (.iterate rfl ?_) ?_
  · rintro ⟨entries, closed⟩
    exact follows_objectTurn hinner opening entries
  · rintro ⟨entries, closed⟩
    have hentries : (move bond.shift entries).reverse = move bond.shift entries.reverse :=
      (move_reverse _ _).symm
    refine .ite Iff.rfl (fun _ => ?_) fun _ => .pure hentries
    exact (follows_setValueFailed false).andThen fun _ => .pure hentries

/-! ## Functions -/

omit hinner in
theorem uncons_move {tokens rest : List Token} {token : Token}
    (h : move shift tokens = token :: rest) :
    ∃ token' rest', tokens = token' :: rest' ∧ token'.kind = token.kind ∧
      move shift rest' = rest := by
  obtain ⟨token', rest', rfl, rfl, rfl⟩ := List.map_eq_cons_iff.mp h
  exact ⟨token', rest', rfl, rfl, rfl⟩

omit hinner in
/-- Whether parameters follow is told by the kinds of the tokens alone. -/
theorem paramsAhead_move (tokens : List Token) :
    paramsAhead (move shift tokens) = paramsAhead tokens := by
  induction tokens using paramsAhead.induct with
  | case1 _ _ _ _ _ _ rest ih => exact ih
  | case2 _ _ _ _ _ _ _ _ _ rest ih => exact ih
  | case3 => rfl
  | case4 => rfl
  | case5 tokens hname hspread hlast hlastSpread =>
      rw [paramsAhead.eq_5 tokens hname hspread hlast hlastSpread]
      refine paramsAhead.eq_5 _ ?_ ?_ ?_ ?_
      · intro _ _ _ _ _ _ rest hmoved
        obtain ⟨⟨_, _, _, _⟩, _, rfl, rfl, hrest₁⟩ := uncons_move hmoved
        obtain ⟨⟨_, _, _, _⟩, _, rfl, rfl, _⟩ := uncons_move hrest₁
        exact hname _ _ _ _ _ _ _ rfl
      · intro _ _ _ _ _ _ _ _ _ rest hmoved
        obtain ⟨⟨_, _, _, _⟩, _, rfl, rfl, hrest₁⟩ := uncons_move hmoved
        obtain ⟨⟨_, _, _, _⟩, _, rfl, rfl, hrest₂⟩ := uncons_move hrest₁
        obtain ⟨⟨_, _, _, _⟩, _, rfl, rfl, _⟩ := uncons_move hrest₂
        exact hspread _ _ _ _ _ _ _ _ _ _ rfl
      · intro _ _ _ _ _ _ _ _ _ rest hmoved
        obtain ⟨⟨_, _, _, _⟩, _, rfl, rfl, hrest₁⟩ := uncons_move hmoved
        obtain ⟨⟨_, _, _, _⟩, _, rfl, rfl, hrest₂⟩ := uncons_move hrest₁
        obtain ⟨⟨_, _, _, _⟩, _, rfl, rfl, _⟩ := uncons_move hrest₂
        exact hlast _ _ _ _ _ _ _ _ _ _ rfl
      · intro _ _ _ _ _ _ _ _ _ _ _ _ rest hmoved
        obtain ⟨⟨_, _, _, _⟩, _, rfl, rfl, hrest₁⟩ := uncons_move hmoved
        obtain ⟨⟨_, _, _, _⟩, _, rfl, rfl, hrest₂⟩ := uncons_move hrest₁
        obtain ⟨⟨_, _, _, _⟩, _, rfl, rfl, hrest₃⟩ := uncons_move hrest₂
        obtain ⟨⟨_, _, _, _⟩, _, rfl, rfl, _⟩ := uncons_move hrest₃
        exact hlastSpread _ _ _ _ _ _ _ _ _ _ _ _ _ rfl

omit hinner in
theorem opensArrow_move (tokens : List Token) :
    opensArrow (move shift tokens) = opensArrow tokens := by
  unfold opensArrow
  split
  next hmoved =>
      obtain ⟨⟨_, _, _, _⟩, _, rfl, rfl, hrest₁⟩ := uncons_move hmoved
      obtain ⟨⟨_, _, _, _⟩, _, rfl, rfl, _⟩ := uncons_move hrest₁
      rfl
  next hother =>
      split
      next => exact absurd rfl (hother _ _ _ _ _ _ _)
      next => exact paramsAhead_move tokens

omit hinner in
theorem follows_arrowAhead : Follows bond i i arrowAhead arrowAhead := by
  intro context other state back halike post hpost
  rw [arrowAhead, returns_bind, returns_get, returns_pure] at hpost ⊢
  refine ⟨_, back, hpost, ?_, halike⟩
  have htail : (move bond.shift (back.visibleFrom 0)).tail =
      move bond.shift (back.visibleFrom 0).tail := List.map_tail.symm
  rw [halike.visibleFrom, htail, opensArrow_move]
  rfl

omit hinner in
theorem follows_paramName (rest : Bool) :
    Follows bond .within .within (paramName rest) (paramName rest) :=
  follows_current.bind fun _ => follows_advance.andThen fun _ =>
    (follows_eat _).andThen fun _ => .pure rfl

omit hinner in
theorem follows_arrowParams : Follows bond .within .within arrowParams arrowParams := by
  refine follows_current.bind fun token => follows_advance.andThen fun _ => ?_
  refine .ite Iff.rfl (fun _ => .pure rfl) fun _ => ?_
  refine FollowsBy.andThen (.iterate rfl fun params => ?_) fun params => .pure (move_eq _ _).symm
  refine (follows_eat _).andThen fun found => .ite Iff.rfl (fun _ => .pure rfl) fun _ => ?_
  refine (follows_eat _).andThen fun rest => .ite Iff.rfl (fun _ => ?_) fun _ => ?_
  · exact (follows_use _).andThen fun _ => (follows_paramName rest).andThen fun _ => .pure rfl
  · exact (follows_paramName rest).andThen fun _ => .pure rfl

theorem follows_arrow : Follows bond .within .within (arrow inner) (arrow inner) := by
  refine (follows_use _).andThen fun _ => follows_arrowParams.andThen fun params => ?_
  refine (follows_eat _).andThen fun _ => (follows_check _).andThen fun found => ?_
  refine .ite Iff.rfl (fun _ => ?_) fun _ => ?_
  · exact follows_blockText.andThen fun _ => .pure rfl
  · exact (hinner .any).bind fun _ => .pure rfl

/-! ## Primary values -/

omit hinner in
theorem length_insert {key : String} (value : α) {table : Table α}
    (habsent : Table.find? key table = none) : (table.insert key value).length = table.length + 1 := by
  induction table with
  | nil => rfl
  | cons entry rest ih =>
      rw [Table.find?] at habsent
      split at habsent
      · contradiction
      next hkey =>
          rw [Table.insert]
          split
          · rfl
          · exact congrArg (· + 1) (ih habsent)

omit hinner in
/-- The next number is free, and taking it leaves no gap. -/
theorem Numbered.insert {expressions : Table String} (h : Numbered expressions) (text : String) :
    (expressions.insert (interpolationName expressions.length) text).length =
        expressions.length + 1 ∧
      Numbered (expressions.insert (interpolationName expressions.length) text) := by
  have hlength := length_insert text (h expressions.length (Nat.le_refl _))
  refine ⟨hlength, fun number hnumber => ?_⟩
  rw [hlength] at hnumber
  rw [Table.find?_insert, if_neg, h number (Nat.le_of_succ_le hnumber)]
  intro hname
  have hsame := interpolationName_injective hname
  omega

omit hinner in
theorem follows_interpolation (text : String) :
    Follows bond i i (interpolation text) (interpolation text) := by
  refine (follows_use _).andThen fun _ => ?_
  intro context other state back halike post hpost
  rw [returns_bind, returns_get] at hpost ⊢
  dsimp only at hpost ⊢
  rw [returns_bind, returns_modify, returns_pure] at hpost ⊢
  have hname : interpolationId state.expressions =
      interpolationName (back.expressions.length + bond.shift.ids) := by
    rw [← halike.number]
    rfl
  obtain ⟨hlength, hnumbered⟩ := halike.numbered.insert text
  obtain ⟨hlengthBack, hnumberedBack⟩ := halike.numberedBack.insert text
  refine ⟨_, _, hpost, ?_, { halike with
    number := ?_
    numbered := hnumbered
    numberedBack := hnumberedBack
    notes := ?_ }⟩
  · rw [hname]
    change _ = Value.interpolation
      (interpolationName (interpolationNumber (interpolationName _) + bond.shift.ids)) text
    rw [interpolationNumber_name]
  · have hnumber := halike.number
    refine hlength.trans (Eq.trans ?_ (congrArg (· + bond.shift.ids) hlengthBack).symm)
    omega
  · have hnotes := bond.interpolation back.expressions.length text halike.notes
    rw [← hname] at hnotes
    exact hnotes

theorem follows_primary : Follows bond .within .within (primary inner) (primary inner) := by
  refine follows_current.bind fun token => ?_
  rw [kind_move]
  split
  · exact follows_advance.andThen fun _ => .pure rfl
  · exact (follows_reportUnterminated token).andThen fun _ =>
      follows_advance.andThen fun _ => .pure rfl
  · exact follows_advance.andThen fun _ => .pure rfl
  · exact follows_advance.andThen fun _ => .pure rfl
  · exact follows_advance.andThen fun _ => .pure rfl
  · exact follows_advance.andThen fun _ => follows_interpolation _
  · refine (follows_peekKind 1).andThen fun kind => ?_
    refine .ite Iff.rfl (fun _ => follows_arrow hinner) fun _ => ?_
    exact follows_advance.andThen fun _ => .pure rfl
  · refine follows_arrowAhead.andThen fun found => ?_
    refine .ite Iff.rfl (fun _ => follows_arrow hinner) fun _ => ?_
    exact follows_advance.andThen fun _ => (hinner .any).bind fun _ =>
      (follows_expectClosing _).andThen fun _ => .pure rfl
  · refine follows_advance.andThen fun _ => (follows_sequence hinner .bracket).bind fun items => .pure ?_
    exact congrArg Value.array (Value.renumberItems_eq _ _).symm
  · refine (follows_objectEntries hinner).bind fun entries => .pure ?_
    exact congrArg Value.object (Value.renumberEntries_eq _ _).symm
  · exact (follows_unexpected _).andThen fun _ => (follows_setValueFailed true).andThen fun _ =>
      follows_skipValue.andThen fun _ => .pure rfl

/-! ## Operators -/

theorem follows_postfixTurn (value : Value) :
    Follows bond .within .within (postfixTurn inner (move bond.shift value))
      (postfixTurn inner value) := by
  refine follows_current.bind fun token => .previousLine fun line => ?_
  have hline : (move bond.shift token).line = line + bond.shift.lines ↔ token.line = line := by
    rw [line_move]
    exact Nat.add_right_cancel_iff
  rw [kind_move]
  simp only [hline]
  split
  · refine follows_advance.andThen fun _ => follows_current.bind fun name => ?_
    refine .ite Iff.rfl (fun _ => ?_) fun _ => ?_
    · exact follows_advance.andThen fun _ => .pure rfl
    · exact (follows_unexpected _).andThen fun _ => (follows_setValueFailed true).andThen fun _ =>
        .pure rfl
  · refine .ite Iff.rfl (fun _ => ?_) fun _ => .pure rfl
    exact follows_advance.andThen fun _ => (hinner .any).bind fun _ =>
      (follows_expectClosing _).andThen fun _ => .pure rfl
  · refine .ite Iff.rfl (fun _ => ?_) fun _ => .pure rfl
    refine follows_advance.andThen fun _ => (follows_sequence hinner .paren).bind fun args => .pure ?_
    exact congrArg (fun args => ForInStep.yield (Value.call (move bond.shift value) args))
      (Value.renumberItems_eq _ _).symm
  · exact .pure rfl

theorem follows_unary : Follows bond .within .within (unary inner) (unary inner) := by
  have hprefix (ops : List UnaryOp) :
      Follows bond .within .within (prefixTurn (move bond.shift ops)) (prefixTurn ops) := by
    refine follows_currentKind.andThen fun kind => ?_
    split
    · exact follows_advance.andThen fun _ => .pure rfl
    · exact follows_advance.andThen fun _ => .pure rfl
    · exact .pure rfl
  refine FollowsBy.andThen (.iterate rfl hprefix) fun ops => ?_
  refine ((follows_primary hinner).bind fun value => .iterate rfl (follows_postfixTurn hinner)).bind
    fun value => .pure ?_
  induction ops generalizing value with
  | nil => rfl
  | cons op ops ih => exact ih (.unary op value)

theorem follows_equality : Follows bond .within .within (equality inner) (equality inner) :=
  follows_chain (follows_chain (follows_chain (follows_chain (follows_unary hinner))))

theorem follows_conditional :
    Follows bond .within .within (conditional inner) (conditional inner) := by
  refine follows_valueFailed.andThen fun failedBefore => (follows_equality hinner).bind fun _ => ?_
  refine follows_valueFailed.andThen fun failed => .ite Iff.rfl (fun _ => .pure rfl) fun _ => ?_
  refine (follows_eat _).andThen fun found => .ite Iff.rfl (fun _ => ?_) fun _ => .pure rfl
  refine (hinner .any).bind fun _ => (follows_eat _).andThen fun found => ?_
  refine .ite Iff.rfl (fun _ => ?_) fun _ => ?_
  · exact (hinner .conditional).bind fun _ => .pure rfl
  · exact (follows_unexpected _).andThen fun _ => (follows_setValueFailed true).andThen fun _ =>
      .pure rfl

theorem follows_coalesce : Follows bond .within .within (coalesce inner) (coalesce inner) :=
  follows_chain (follows_chain (follows_chain (follows_conditional hinner)))

end

/-! ## Levels -/

theorem follows_refuseValue : Follows bond .within .within refuseValue refuseValue :=
  follows_skipValue.andThen fun _ => (follows_setValueFailed true).andThen fun _ => .pure rfl

theorem follows_nested (levels : Nat) (strength : Strength) :
    Follows bond .within .within (nested levels strength) (nested levels strength) := by
  induction levels generalizing strength with
  | zero =>
      intro context other state back halike post hpost
      obtain ⟨_, _, hrun, _⟩ := hpost
      contradiction
  | succ levels ih =>
      cases strength with
      | any => exact follows_deeper follows_refuseValue (follows_coalesce ih)
      | conditional => exact follows_deeper follows_refuseValue (follows_conditional ih)

theorem follows_value : Follows bond .within .within value value :=
  follows_nested _ .any

theorem follows_object : Follows bond .within .within object object :=
  follows_objectEntries (follows_nested _)

theorem follows_valueOr {recover : Parser Unit}
    (hrecover : Follows bond .within .within recover recover) :
    Follows bond .within .within (valueOr recover) (valueOr recover) :=
  (follows_setValueFailed false).andThen fun _ => follows_value.bind fun _ =>
    (follows_ifFailed hrecover).andThen fun _ => .pure rfl

end Parser
end SceneLang
