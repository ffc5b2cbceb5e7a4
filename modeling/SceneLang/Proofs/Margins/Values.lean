import SceneLang.Proofs.Margins.Steps
import SceneLang.Proofs.Parser.Values

/-!
# Blocks and values in pairs

Names, blocks and values are read to what resembles each other: blocks of raw text compare as
the texts that are cut out, and everything else is the same.
-/

namespace SceneLang

/-! ## The parameters of a function ahead -/

/-- What the parameters of a function are made of, up to its arrow. -/
def TokenKind.isParamPart : TokenKind → Bool
  | .identifier | .comma | .spread | .rightParen | .fatArrow => true
  | _ => false

theorem TokenKind.isLayout_of_isParamPart {kind : TokenKind} (h : kind.isParamPart = true) :
    kind.isLayout = false := by
  cases kind <;> first | rfl | contradiction

namespace Parser

/-- The kinds of the tokens ahead, as long as they may be parameters of a function. -/
def headKinds (tokens : List Token) : List TokenKind :=
  (tokens.map Token.kind).takeWhile TokenKind.isParamPart

theorem exists_cons_of_headKinds {token : Token} {rest twins : List Token}
    (h : headKinds (token :: rest) = headKinds twins) (hpart : token.kind.isParamPart = true) :
    ∃ text span position others, twins = ⟨token.kind, text, span, position⟩ :: others ∧
      headKinds rest = headKinds others := by
  rw [headKinds, List.map_cons, List.takeWhile_cons_of_pos hpart] at h
  cases twins with
  | nil => cases h
  | cons twin others =>
      obtain ⟨kind, text, span, position⟩ := twin
      by_cases hpart' : kind.isParamPart = true
      · rw [headKinds, List.map_cons, List.takeWhile_cons_of_pos hpart'] at h
        obtain ⟨rfl, hrest⟩ := List.cons.inj h
        exact ⟨text, span, position, others, rfl, hrest⟩
      · rw [headKinds, List.map_cons, List.takeWhile_cons_of_neg hpart'] at h
        cases h

theorem paramsAhead_of_headKinds {tokens twins : List Token}
    (h : headKinds tokens = headKinds twins) (hparams : paramsAhead tokens = true) :
    paramsAhead twins = true := by
  induction tokens using paramsAhead.induct generalizing twins with
  | case1 _ _ _ _ _ _ rest ih =>
      obtain ⟨_, _, _, _, rfl, hname⟩ := exists_cons_of_headKinds h rfl
      obtain ⟨_, _, _, _, rfl, hrest⟩ := exists_cons_of_headKinds hname rfl
      have hparams' := ih hrest hparams
      exact hparams'
  | case2 _ _ _ _ _ _ _ _ _ rest ih =>
      obtain ⟨_, _, _, _, rfl, hdots⟩ := exists_cons_of_headKinds h rfl
      obtain ⟨_, _, _, _, rfl, hname⟩ := exists_cons_of_headKinds hdots rfl
      obtain ⟨_, _, _, _, rfl, hrest⟩ := exists_cons_of_headKinds hname rfl
      have hparams' := ih hrest hparams
      exact hparams'
  | case3 =>
      obtain ⟨_, _, _, _, rfl, hname⟩ := exists_cons_of_headKinds h rfl
      obtain ⟨_, _, _, _, rfl, hparen⟩ := exists_cons_of_headKinds hname rfl
      obtain ⟨_, _, _, _, rfl, -⟩ := exists_cons_of_headKinds hparen rfl
      rfl
  | case4 =>
      obtain ⟨_, _, _, _, rfl, hdots⟩ := exists_cons_of_headKinds h rfl
      obtain ⟨_, _, _, _, rfl, hname⟩ := exists_cons_of_headKinds hdots rfl
      obtain ⟨_, _, _, _, rfl, hparen⟩ := exists_cons_of_headKinds hname rfl
      obtain ⟨_, _, _, _, rfl, -⟩ := exists_cons_of_headKinds hparen rfl
      rfl
  | case5 tokens hname hspread hlast hlastSpread =>
      rw [paramsAhead.eq_5 tokens hname hspread hlast hlastSpread] at hparams
      contradiction

theorem opensArrow_of_headKinds {tokens twins : List Token}
    (h : headKinds tokens = headKinds twins) (hopens : opensArrow tokens = true) :
    opensArrow twins = true := by
  unfold opensArrow at hopens
  split at hopens
  · obtain ⟨_, _, _, _, rfl, hparen⟩ := exists_cons_of_headKinds h rfl
    obtain ⟨_, _, _, _, rfl, -⟩ := exists_cons_of_headKinds hparen rfl
    rfl
  · exact opensArrow_of_paramsAhead (paramsAhead_of_headKinds h hopens)

theorem opensArrow_congr {tokens twins : List Token} (h : headKinds tokens = headKinds twins) :
    opensArrow tokens = opensArrow twins :=
  Bool.eq_iff_iff.mpr ⟨opensArrow_of_headKinds h, opensArrow_of_headKinds h.symm⟩

theorem headKinds_of_woven {offset : Nat → Nat → Prop} {behind : Bool} {depth : Nat}
    {tokens twins : List Token} (h : Woven offset behind depth tokens twins)
    (hbehind : behind = false) : headKinds tokens = headKinds twins := by
  induction h with
  | stop htwins heof =>
      rw [headKinds, headKinds, List.map_singleton, List.map_singleton, htwins.kind]
  | @both _ _ token twin rest rest' htwins heof hrest ih =>
      rw [headKinds, headKinds, List.map_cons, List.map_cons, htwins.kind]
      by_cases hpart : twin.kind.isParamPart = true
      · rw [List.takeWhile_cons_of_pos hpart, List.takeWhile_cons_of_pos hpart]
        exact congrArg _ (ih (TokenKind.isLayout_of_isParamPart hpart))
      · rw [List.takeWhile_cons_of_neg hpart, List.takeWhile_cons_of_neg hpart]
  | left => contradiction
  | right => contradiction

theorem resembles_array {text : String → String} {items items' : List Value}
    (h : Resembles text items items') : Resembles text (Value.array items) (.array items') := by
  change Value.array (Value.sketchItems text items) = .array (Value.sketchItems text items')
  rw [Value.sketchItems_eq, Value.sketchItems_eq, h]

theorem resembles_object {text : String → String} {entries entries' : List ObjectEntry}
    (h : Resembles text entries entries') :
    Resembles text (Value.object entries) (.object entries') := by
  change Value.object (Value.sketchEntries text entries) =
    .object (Value.sketchEntries text entries')
  rw [Value.sketchEntries_eq, Value.sketchEntries_eq, h]

theorem resembles_call {text : String → String} {callee callee' : Value} {args args' : List Value}
    (hcallee : Resembles text callee callee') (hargs : Resembles text args args') :
    Resembles text (Value.call callee args) (.call callee' args') := by
  change Value.call (callee.sketch text) (Value.sketchItems text args) =
    .call (callee'.sketch text) (Value.sketchItems text args')
  rw [Value.sketchItems_eq, Value.sketchItems_eq, hargs, show callee.sketch text = callee'.sketch text from hcallee]

theorem resembles_ternary {text : String → String} {condition condition' thenBranch thenBranch'
    elseBranch elseBranch' : Value} (hcondition : Resembles text condition condition')
    (hthen : Resembles text thenBranch thenBranch') (helse : Resembles text elseBranch elseBranch') :
    Resembles text (Value.ternary condition thenBranch elseBranch)
      (.ternary condition' thenBranch' elseBranch') := by
  change Value.ternary (condition.sketch text) (thenBranch.sketch text) (elseBranch.sketch text) =
    .ternary (condition'.sketch text) (thenBranch'.sketch text) (elseBranch'.sketch text)
  rw [show condition.sketch text = condition'.sketch text from hcondition,
    show thenBranch.sketch text = thenBranch'.sketch text from hthen,
    show elseBranch.sketch text = elseBranch'.sketch text from helse]

variable {α β : Type} {margins : Margins} {R : α → α → Prop} {S : β → β → Prop}

/-! ## Names and blocks -/

theorem pairs_expectName (what : String) :
    Pairs margins (expectName what) (expectName what) := by
  refine .current fun token other htwins => PairsBy.at ?_ token other
  rw [htwins.kind, htwins.text]
  split
  · exact pairs_advance.andThen fun _ => .pure rfl
  · exact pairs_advance.andThen fun _ => .pure rfl
  · exact (pairs_reportUnterminated token other).andThen fun _ =>
      pairs_advance.andThen fun _ => .pure rfl
  · exact (pairs_unexpected _).andThen fun _ => .pure rfl

theorem pairs_bracedItem {item item' : Parser β} (hitem : PairsBy margins S item item') :
    PairsBy margins (TurnBy S) (bracedItem item) (bracedItem item') := by
  refine .ifStalled hitem (fun _ _ hvalue => ?_) fun _ _ hvalue => .pure (.yield hvalue)
  refine .currentKind fun token other _ => PairsBy.at ?_ token other
  refine .ite Iff.rfl (fun _ => .pure (.yield hvalue)) fun _ => ?_
  exact pairs_advance.andThen fun _ => .pure (.yield hvalue)

theorem pairs_bracedTurn {opening opening' : Token} {item item' : β → Parser β}
    (hitem : ∀ value value', S value value' → PairsBy margins S (item value) (item' value'))
    {value value' : β} (hvalue : S value value') :
    PairsBy margins (TurnBy S) (bracedTurn opening item value)
      (bracedTurn opening' item' value') := by
  refine .currentKind fun token other _ => PairsBy.at ?_ token other
  split
  · exact pairs_advance.andThen fun _ => .pure (.done hvalue)
  · exact (pairs_reportUnclosed opening opening').andThen fun _ => .pure (.done hvalue)
  · exact pairs_advance.andThen fun _ => .pure (.yield hvalue)
  · exact pairs_advance.andThen fun _ => .pure (.yield hvalue)
  · exact pairs_bracedItem (hitem value value' hvalue)

theorem pairs_braced {start start' : β} {item item' : β → Parser β} (hstart : S start start')
    (hitem : ∀ value value', S value value' → PairsBy margins S (item value) (item' value')) :
    PairsBy margins S (braced start item) (braced start' item') := by
  refine .current fun opening opening' _ => PairsBy.at ?_ opening opening'
  refine (pairs_eat _).andThen fun found => .ite Iff.rfl (fun _ => ?_) fun _ => ?_
  · exact .iterateBy hstart fun _ _ hvalue => pairs_bracedTurn hitem hvalue
  · exact (pairs_unexpected _).andThen fun _ => .pure hstart

/-- A text that is kept as it is written. -/
def Raw (margins : Margins) (text text' : String) : Prop :=
  margins.text text = margins.text text'

/-- A text that is kept as it is written, if there is one. -/
def MaybeRaw (margins : Margins) (found found' : Option String) : Prop :=
  found.map margins.text = found'.map margins.text

theorem pairs_captureBlock : PairsBy margins (MaybeRaw margins) captureBlock captureBlock := by
  refine .current fun opening opening' htwins => PairsBy.at ?_ opening opening'
  refine .ite (by rw [htwins.kind]) (fun hbrace => ?_) fun _ => ?_
  · have hstop := htwins.stop (by rw [hbrace]; rfl)
    refine pairs_skipBalanced.andThen fun closed => ?_
    split
    · refine pairs_previousSpan.bindBy fun span span' hspan => ?_
      exact (pairs_sliceBetween hstop hspan.1).bindBy fun _ _ htext =>
        .pure (congrArg some htext)
    · refine (pairs_reportUnclosed opening opening').andThen fun _ => .read ?_
      exact (pairs_sliceBetween hstop margins.whole).bindBy fun _ _ htext =>
        .pure (congrArg some htext)
  · exact (pairs_unexpected _).andThen fun _ => .pure rfl

theorem pairs_blockText : PairsBy margins (Raw margins) blockText blockText := by
  refine pairs_captureBlock.bindBy fun found found' hfound => .pure ?_
  cases found with
  | none =>
      cases found' with
      | none => rfl
      | some text' => cases hfound
  | some text =>
      cases found' with
      | none => cases hfound
      | some text' => exact Option.some.inj hfound

theorem pairs_paramListTurn (params : List String) :
    Pairs margins (paramListTurn params) (paramListTurn params) := by
  refine .current fun token other htwins => PairsBy.at ?_ token other
  rw [htwins.kind, htwins.text]
  split
  · exact pairs_advance.andThen fun _ => .pure rfl
  · exact pairs_advance.andThen fun _ => .pure rfl
  · refine pairs_advance.andThen fun _ => .current fun name name' hname => PairsBy.at ?_ name name'
    rw [hname.kind, hname.text]
    refine .ite Iff.rfl (fun _ => ?_) fun _ => .pure rfl
    exact pairs_advance.andThen fun _ => .pure rfl
  · exact pairs_advance.andThen fun _ => .pure rfl
  · exact (pairs_unexpected _).andThen fun _ => (pairs_skipToClosing _).andThen fun _ => .pure rfl

theorem pairs_paramList : Pairs margins paramList paramList := by
  refine (pairs_eat _).andThen fun found => .ite Iff.rfl (fun _ => ?_) fun _ => .pure rfl
  exact PairsBy.andThen (.iteratePlain [] pairs_paramListTurn) fun _ => .pure rfl

/-! ## Lists and objects -/

theorem pairs_expectClosing (delimiter : Delimiter) :
    Pairs margins (expectClosing delimiter) (expectClosing delimiter) := by
  refine (pairs_eat _).andThen fun closed => .ite Iff.rfl (fun _ => .pure rfl) fun _ => ?_
  exact (pairs_unexpected _).andThen fun _ => pairs_setValueFailed true

theorem pairs_chain {operator? : TokenKind → Option BinaryOp} {operand : Parser Value}
    (hoperand : Pairs margins operand operand) :
    Pairs margins (chain operator? operand) (chain operator? operand) := by
  refine hoperand.bindBy fun left left' hleft => .iterate hleft fun left left' hleft => ?_
  refine .currentKind fun token other _ => PairsBy.at ?_ token other
  split
  · exact .pure (congrArg ForInStep.done hleft)
  next op _ =>
    refine pairs_advance.andThen fun _ => hoperand.bindBy fun right right' hright => .pure ?_
    exact congrArg₂ (fun left right => ForInStep.yield (Value.binary op left right)) hleft hright

section

variable {inner : Inner} (hinner : ∀ strength, Pairs margins (inner strength) (inner strength))
include hinner

theorem pairs_sequenceItem : Pairs margins (sequenceItem inner) (sequenceItem inner) := by
  refine (pairs_eat _).andThen fun found => .ite Iff.rfl (fun _ => ?_) fun _ => hinner .any
  exact (pairs_use _).andThen fun _ => (hinner .any).bindBy fun _ _ hvalue =>
    .pure (congrArg Value.spread hvalue)

omit hinner in
theorem pairs_sequenceNext (delimiter : Delimiter) {items items' : List Value}
    (hitems : Resembles margins.text items items') :
    Pairs margins (sequenceNext delimiter items) (sequenceNext delimiter items') := by
  have hnext (closed : Bool) : Resembles margins.text (ForInStep.yield (items, closed))
      (.yield (items', closed)) := congrArg (fun items => ForInStep.yield (items, closed)) hitems
  refine (pairs_eat _).andThen fun found => .ite Iff.rfl (fun _ => .pure (hnext _)) fun _ => ?_
  refine .check fun found => .ite Iff.rfl (fun _ => .pure (hnext _)) fun _ => ?_
  exact (pairs_expectClosing delimiter).andThen fun _ =>
    .pure (congrArg (fun items => ForInStep.done (items, false)) hitems)

theorem pairs_sequenceTurn (delimiter : Delimiter) {items items' : List Value}
    (hitems : Resembles margins.text items items') :
    Pairs margins (sequenceTurn inner delimiter items) (sequenceTurn inner delimiter items') := by
  have hdone (closed : Bool) : Resembles margins.text (ForInStep.done (items, closed))
      (.done (items', closed)) := congrArg (fun items => ForInStep.done (items, closed)) hitems
  refine (pairs_eat _).andThen fun found => .ite Iff.rfl (fun _ => .pure (hdone _)) fun _ => ?_
  refine .currentKind fun token other _ => PairsBy.at ?_ token other
  refine .ite Iff.rfl (fun _ => ?_) fun _ => ?_
  · exact (pairs_expectClosing delimiter).andThen fun _ => .pure (hdone _)
  · exact (pairs_setValueFailed false).andThen fun _ =>
      (pairs_sequenceItem hinner).bindBy fun _ _ hitem =>
        (pairs_ifFailed pairs_recoverInList).andThen fun _ =>
          pairs_sequenceNext delimiter (.cons hitem hitems)

theorem pairs_sequence (delimiter : Delimiter) :
    Pairs margins (sequence inner delimiter) (sequence inner delimiter) := by
  refine PairsBy.bindBy (.iterate (.refl ([], false)) ?_) ?_
  · rintro ⟨items, closed⟩ ⟨items', closed'⟩ hfound
    exact pairs_sequenceTurn hinner delimiter (Prod.mk.inj hfound).1
  · rintro ⟨items, closed⟩ ⟨items', closed'⟩ hfound
    obtain ⟨hitems, hclosed⟩ := Prod.mk.inj hfound
    refine .ite (by rw [show closed = closed' from hclosed]) (fun _ => ?_) fun _ =>
      .pure (Resembles.reverse hitems)
    exact (pairs_setValueFailed false).andThen fun _ => .pure (Resembles.reverse hitems)

theorem pairs_fieldValue {key key' : Token} (hkey : key.Twins margins.offset key') :
    Pairs margins (fieldValue inner key) (fieldValue inner key') := by
  refine .currentKind fun token other _ => PairsBy.at ?_ token other
  rw [hkey.kind, hkey.text]
  refine .ite Iff.rfl (fun _ => ?_) fun _ => .ite Iff.rfl (fun _ => .pure rfl) fun _ => ?_
  · exact pairs_advance.andThen fun _ => hinner .any
  · refine PairsBy.andThen (pairs_report ?_) fun _ => hinner .any
    rfl

omit hinner in
theorem pairs_strayEntry : Pairs margins strayEntry strayEntry := by
  refine .currentKind fun token other _ => PairsBy.at ?_ token other
  refine (pairs_unexpected _).andThen fun _ => (pairs_setValueFailed true).andThen fun _ => ?_
  refine .ite Iff.rfl (fun _ => ?_) fun _ => ?_
  · exact pairs_advance.andThen fun _ => pairs_recoverInList
  · exact pairs_skipValue.andThen fun _ => pairs_recoverInList

omit hinner in
theorem pairs_reportOpenObject (opening opening' last last' : Token) :
    Pairs margins (reportOpenObject opening last) (reportOpenObject opening' last') :=
  pairs_endPosition.bindBy fun _ _ _ => pairs_report rfl

theorem pairs_objectTurn (opening opening' : Token) {entries entries' : List ObjectEntry}
    (hentries : Resembles margins.text entries entries') :
    Pairs margins (objectTurn inner opening entries) (objectTurn inner opening' entries') := by
  have hyield {entries entries' : List ObjectEntry}
      (hentries : Resembles margins.text entries entries') :
      Resembles margins.text (ForInStep.yield (entries, false)) (.yield (entries', false)) :=
    congrArg (fun entries => ForInStep.yield (entries, false)) hentries
  have hfield {key key' : Token} (hkey : key.Twins margins.offset key') : Pairs margins
      (do
        let value ← fieldValue inner key
        ifFailed recoverInList
        return ForInStep.yield (.field key.text value :: entries, false))
      (do
        let value ← fieldValue inner key'
        ifFailed recoverInList
        return ForInStep.yield (.field key'.text value :: entries', false)) := by
    rw [hkey.text]
    exact (pairs_fieldValue hinner hkey).bindBy fun _ _ hvalue =>
      (pairs_ifFailed pairs_recoverInList).andThen fun _ =>
        .pure (hyield (.cons (congrArg (ObjectEntry.field key'.text) hvalue) hentries))
  refine .current fun token other htwins => PairsBy.at ?_ token other
  rw [htwins.kind]
  split
  · exact pairs_advance.andThen fun _ =>
      .pure (congrArg (fun entries => ForInStep.done (entries, true)) hentries)
  · exact (pairs_reportOpenObject opening opening' token other).andThen fun _ =>
      (pairs_setValueFailed true).andThen fun _ =>
        .pure (congrArg (fun entries => ForInStep.done (entries, false)) hentries)
  · exact pairs_advance.andThen fun _ => .pure (hyield hentries)
  · exact pairs_advance.andThen fun _ => .pure (hyield hentries)
  · exact pairs_advance.andThen fun _ => (pairs_use _).andThen fun _ =>
      (hinner .any).bindBy fun _ _ hvalue =>
        (pairs_ifFailed pairs_recoverInList).andThen fun _ =>
          .pure (hyield (.cons (congrArg ObjectEntry.spread hvalue) hentries))
  · exact pairs_advance.andThen fun _ => hfield htwins
  · exact pairs_advance.andThen fun _ => hfield htwins
  · exact pairs_advance.andThen fun _ => hfield htwins
  · exact pairs_advance.andThen fun _ => hfield htwins
  · exact pairs_advance.andThen fun _ => hfield htwins
  · exact pairs_strayEntry.andThen fun _ => .pure (hyield hentries)

theorem pairs_objectEntries : Pairs margins (objectEntries inner) (objectEntries inner) := by
  refine .current fun opening opening' _ => PairsBy.at ?_ opening opening'
  refine pairs_advance.andThen fun _ => PairsBy.bindBy (.iterate (.refl ([], false)) ?_) ?_
  · rintro ⟨entries, closed⟩ ⟨entries', closed'⟩ hfound
    exact pairs_objectTurn hinner opening opening' (Prod.mk.inj hfound).1
  · rintro ⟨entries, closed⟩ ⟨entries', closed'⟩ hfound
    obtain ⟨hentries, hclosed⟩ := Prod.mk.inj hfound
    refine .ite (by rw [show closed = closed' from hclosed]) (fun _ => ?_) fun _ =>
      .pure (Resembles.reverse hentries)
    exact (pairs_setValueFailed false).andThen fun _ => .pure (Resembles.reverse hentries)

/-! ## Functions -/

omit hinner in
theorem pairs_arrowAhead_of_paren {token other : Token} (htwins : token.Twins margins.offset other)
    (hparen : other.kind = .leftParen) :
    PairsAt margins token other Eq arrowAhead arrowAhead := by
  rintro state twin hpaired rfl rfl post hpost
  rw [arrowAhead, returns_bind, returns_get, returns_pure] at hpost ⊢
  refine ⟨_, twin, hpost, ?_, hpaired, .refl _ _⟩
  obtain ⟨rest, rest', hvisible, hvisible', _⟩ := hpaired.exists_visible
  have hseen := hpaired.seen
  rw [hvisible, hvisible'] at hseen ⊢
  cases hseen with
  | stop _ heof => rw [heof] at hparen; contradiction
  | both _ _ _ hrest =>
      rw [hparen] at hrest
      exact opensArrow_congr (headKinds_of_woven hrest rfl)

omit hinner in
theorem pairs_paramName (rest : Bool) : Pairs margins (paramName rest) (paramName rest) := by
  refine .current fun token other htwins => PairsBy.at ?_ token other
  rw [htwins.text]
  exact pairs_advance.andThen fun _ => (pairs_eat _).andThen fun _ => .pure rfl

omit hinner in
theorem pairs_arrowParams : Pairs margins arrowParams arrowParams := by
  refine .current fun token other htwins => PairsBy.at ?_ token other
  rw [htwins.kind, htwins.text]
  refine pairs_advance.andThen fun _ => .ite Iff.rfl (fun _ => .pure rfl) fun _ => ?_
  refine PairsBy.andThen (.iteratePlain [] fun params => ?_) fun _ => .pure rfl
  refine (pairs_eat _).andThen fun found => .ite Iff.rfl (fun _ => .pure rfl) fun _ => ?_
  refine (pairs_eat _).andThen fun rest => .ite Iff.rfl (fun _ => ?_) fun _ => ?_
  · exact (pairs_use _).andThen fun _ => (pairs_paramName rest).andThen fun _ => .pure rfl
  · exact (pairs_paramName rest).andThen fun _ => .pure rfl

theorem pairs_arrow : Pairs margins (arrow inner) (arrow inner) := by
  refine (pairs_use _).andThen fun _ => pairs_arrowParams.andThen fun params => ?_
  refine (pairs_eat _).andThen fun _ => .check fun found => ?_
  refine .ite Iff.rfl (fun _ => ?_) fun _ => ?_
  · exact pairs_blockText.bindBy fun _ _ hbody =>
      .pure (congrArg (fun body => Value.arrow params (.block body)) hbody)
  · exact (hinner .any).bindBy fun _ _ hbody =>
      .pure (congrArg (fun body => Value.arrow params (.expr body)) hbody)

/-! ## Primary values -/

omit hinner in
theorem pairs_interpolation (text : String) :
    Pairs margins (interpolation text) (interpolation text) := by
  refine (pairs_use _).andThen fun _ => ?_
  intro state twin hpaired post hpost
  rw [returns_bind, returns_get] at hpost ⊢
  dsimp only at hpost ⊢
  rw [returns_bind, returns_modify, returns_pure] at hpost ⊢
  rw [hpaired.expressions]
  exact ⟨_, _, hpost, rfl, { hpaired with expressions := rfl }, .inl ⟨rfl, rfl⟩⟩

theorem pairs_primary : Pairs margins (primary inner) (primary inner) := by
  have hread (value : Value) : Pairs margins (advance >>= fun _ => pure value)
      (advance >>= fun _ => pure value) := pairs_advance.andThen fun _ => .pure rfl
  refine .current fun token other htwins => ?_
  rw [htwins.kind, htwins.text]
  split
  · exact (hread _).at token other
  · refine PairsBy.at ?_ token other
    exact (pairs_reportUnterminated token other).andThen fun _ => hread _
  · exact (hread _).at token other
  · exact (hread _).at token other
  · exact (hread _).at token other
  · exact PairsBy.at (pairs_advance.andThen fun _ => pairs_interpolation _) token other
  next hkind =>
    refine .peekKind fun next next' hnext => PairsBy.at ?_ token other
    rw [hnext (by rw [hkind]; rfl)]
    exact .ite Iff.rfl (fun _ => pairs_arrow hinner) fun _ => hread _
  next hkind =>
    refine (pairs_arrowAhead_of_paren htwins hkind).bindBy fun found found' hfound => ?_
    refine .ite (by rw [hfound]) (fun _ => pairs_arrow hinner) fun _ => ?_
    exact pairs_advance.andThen fun _ => (hinner .any).bindBy fun _ _ hvalue =>
      (pairs_expectClosing _).andThen fun _ => .pure hvalue
  · refine PairsBy.at (pairs_advance.andThen fun _ => ?_) token other
    exact (pairs_sequence hinner .bracket).bindBy fun _ _ hitems => .pure (resembles_array hitems)
  · refine PairsBy.at ?_ token other
    exact (pairs_objectEntries hinner).bindBy fun _ _ hentries => .pure (resembles_object hentries)
  · refine PairsBy.at ?_ token other
    exact (pairs_unexpected _).andThen fun _ => (pairs_setValueFailed true).andThen fun _ =>
      pairs_skipValue.andThen fun _ => .pure rfl

/-! ## Operators -/

theorem pairs_postfixTurn {value value' : Value} (hvalue : Resembles margins.text value value') :
    Pairs margins (postfixTurn inner value) (postfixTurn inner value') := by
  refine .current fun token other htwins => PairsBy.at ?_ token other
  rw [htwins.kind, htwins.line]
  refine pairs_previousLine.andThen fun line => ?_
  dsimp only
  have hdone : Resembles margins.text (ForInStep.done value) (.done value') :=
    congrArg ForInStep.done hvalue
  split
  · refine pairs_advance.andThen fun _ => .current fun name name' hname => PairsBy.at ?_ name name'
    rw [hname.kind, hname.text]
    refine .ite Iff.rfl (fun _ => ?_) fun _ => ?_
    · exact pairs_advance.andThen fun _ =>
        .pure (congrArg (fun value => ForInStep.yield (Value.member value name'.text)) hvalue)
    · exact (pairs_unexpected _).andThen fun _ => (pairs_setValueFailed true).andThen fun _ =>
        .pure hdone
  · refine .ite Iff.rfl (fun _ => ?_) fun _ => .pure hdone
    refine pairs_advance.andThen fun _ => (hinner .any).bindBy fun _ _ hkey =>
      (pairs_expectClosing _).andThen fun _ => .pure ?_
    exact congrArg₂ (fun value key => ForInStep.yield (Value.index value key)) hvalue hkey
  · refine .ite Iff.rfl (fun _ => ?_) fun _ => .pure hdone
    refine pairs_advance.andThen fun _ => (pairs_sequence hinner .paren).bindBy fun _ _ hargs =>
      .pure ?_
    exact congrArg ForInStep.yield (resembles_call hvalue hargs)
  · exact .pure hdone

theorem pairs_unary : Pairs margins (unary inner) (unary inner) := by
  have hprefix (ops : List UnaryOp) : Pairs margins (prefixTurn ops) (prefixTurn ops) := by
    refine .currentKind fun token other _ => PairsBy.at ?_ token other
    split
    · exact pairs_advance.andThen fun _ => .pure rfl
    · exact pairs_advance.andThen fun _ => .pure rfl
    · exact .pure rfl
  refine PairsBy.andThen (.iteratePlain [] hprefix) fun ops => ?_
  refine PairsBy.bindBy ((pairs_primary hinner).bindBy fun _ _ hvalue =>
    .iterate hvalue fun _ _ => pairs_postfixTurn hinner) fun value value' hvalue => .pure ?_
  induction ops generalizing value value' with
  | nil => exact hvalue
  | cons op ops ih => exact ih _ _ (congrArg (Value.unary op) hvalue)

theorem pairs_equality : Pairs margins (equality inner) (equality inner) :=
  pairs_chain (pairs_chain (pairs_chain (pairs_chain (pairs_unary hinner))))

theorem pairs_conditional : Pairs margins (conditional inner) (conditional inner) := by
  refine pairs_valueFailed.andThen fun failedBefore =>
    (pairs_equality hinner).bindBy fun condition condition' hcondition => ?_
  refine pairs_valueFailed.andThen fun failed =>
    .ite Iff.rfl (fun _ => .pure hcondition) fun _ => ?_
  refine (pairs_eat _).andThen fun found =>
    .ite Iff.rfl (fun _ => ?_) fun _ => .pure hcondition
  refine (hinner .any).bindBy fun thenBranch thenBranch' hthen => (pairs_eat _).andThen fun found => ?_
  refine .ite Iff.rfl (fun _ => ?_) fun _ => ?_
  · exact (hinner .conditional).bindBy fun _ _ helse => .pure (resembles_ternary hcondition hthen helse)
  · exact (pairs_unexpected _).andThen fun _ => (pairs_setValueFailed true).andThen fun _ =>
      .pure (resembles_ternary hcondition hthen (.refl Value.null))

theorem pairs_coalesce : Pairs margins (coalesce inner) (coalesce inner) :=
  pairs_chain (pairs_chain (pairs_chain (pairs_conditional hinner)))

end

/-! ## Levels -/

theorem pairs_refuseValue : Pairs margins refuseValue refuseValue :=
  pairs_skipValue.andThen fun _ => (pairs_setValueFailed true).andThen fun _ => .pure rfl

theorem pairs_nested (levels : Nat) (strength : Strength) :
    Pairs margins (nested levels strength) (nested levels strength) := by
  induction levels generalizing strength with
  | zero => exact .throw _ .bottomless
  | succ levels ih =>
      cases strength with
      | any => exact pairs_deeper pairs_refuseValue (pairs_coalesce ih)
      | conditional => exact pairs_deeper pairs_refuseValue (pairs_conditional ih)

theorem pairs_value : Pairs margins value value :=
  pairs_nested _ .any

theorem pairs_object : Pairs margins object object :=
  pairs_objectEntries (pairs_nested _)

theorem pairs_valueOr {recover : Parser Unit} (hrecover : Pairs margins recover recover) :
    Pairs margins (valueOr recover) (valueOr recover) :=
  (pairs_setValueFailed false).andThen fun _ => pairs_value.bindBy fun _ _ hvalue =>
    (pairs_ifFailed hrecover).andThen fun _ => .pure hvalue

end Parser
end SceneLang
