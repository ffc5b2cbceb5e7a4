import SceneLang.Proofs.Grammar.Lists

/-!
# The grammar is what the parser reads

An operator between two values stops the loops of the levels that bind more tightly, and the
loop of its own level goes on with it.  Operators in front of a value are gathered first, and
stand around the value in the end.  By induction on a derivation its tokens are read as the value
that they stand for, whatever stands around them, as long as it joins nothing to the value.
-/

namespace SceneLang
namespace Grammar

open Parser

section

variable {depth line levels : Nat} {before middle after : Table String} {context : Context}
  {state next : State} {token : Token} {front tokens rest : List Token}

/-! ## Operators in front of a value -/

/-- An operator in front of a value is read; anything else ends the operators. -/
theorem returns_prefixTurn {ops : List UnaryOp} {post : ForInStep (List UnaryOp) → State → Prop}
    (hended : Ended state.ahead) :
    Returns (prefixTurn ops) context state post ↔
      match unaryOp? state.token.kind with
      | some op => post (.yield (op :: ops)) state.advance
      | none => post (.done ops) state := by
  rw [prefixTurn, returns_bind, returns_currentKind hended]
  cases state.token.kind <;>
    simp only [unaryOp?, returns_bind, returns_advance hended, returns_pure]

/-- Operators that have been read stay in front of those that follow. -/
theorem returns_prefixes {ops : List UnaryOp} {post : List UnaryOp → State → Prop}
    (hended : Ended state.ahead) :
    Returns (iterate ops prefixTurn) context state post ↔
      Returns (iterate [] prefixTurn) context state fun more next => post (more ++ ops) next := by
  induction hlength : state.ahead.length using Nat.strongRecOn generalizing state ops post
  case ind n ih =>
  rw [returns_iterate, returns_prefixTurn hended]
  rw [returns_iterate, returns_prefixTurn hended]
  cases unaryOp? state.token.kind with
  | none => exact Iff.rfl
  | some op =>
      dsimp only
      apply and_congr_right
      intro hshorter
      have hended' := (advance_keeps hended).moved.ended hended
      have hnext (ops : List UnaryOp) (post : List UnaryOp → State → Prop) :
          Returns (iterate ops prefixTurn) context state.advance post ↔ _ :=
        ih state.advance.ahead.length (by omega) hended' rfl
      rw [hnext (op :: ops), hnext [op]]
      simp only [List.append_assoc, List.cons_append, List.nil_append]

theorem depthAfter_unaryOp {op : UnaryOp} (h : unaryOp? token.kind = some op) (depth : Nat) :
    depthAfter depth token.kind = depth := by
  cases hkind : token.kind <;> rw [hkind] at h <;> first | rfl | contradiction

theorem depthAfter_operator {level : Level} {op : BinaryOp}
    (h : level.operator? token.kind = some op) (depth : Nat) :
    depthAfter depth token.kind = depth := by
  cases hkind : token.kind <;> rw [hkind] at h <;> first | rfl | (cases level <;> contradiction)

theorem parses_unary {mark : Token} {op : UnaryOp} {operand : Value}
    (hmark : unaryOp? mark.kind = some op)
    (hoperand : Derives depth (.expr .unary operand) before tokens after)
    (ih : Parses depth (.expr .unary operand) before tokens after) :
    Parses depth (.expr .unary (.unary op operand)) before (mark :: tokens) after := by
  intro line levels context state rest hline hlevels hstart hstops post hpost
  rw [List.forall_mem_cons] at hline
  have hmarked := hstart.read_advance (plain_unaryOp hmark) (depthAfter_unaryOp hmark _) hline.1
  have hinside := hoperand.start id hmarked hstart.room
  have hoperands := ih line levels context state.advance rest hline.2 hlevels hinside
    (by rwa [hmarked.braceDepth])
  rw [Level.parser, Parser.unary, returns_bind, returns_iterate, returns_prefixTurn hstart.ended,
    hstart.sees.token_eq, hmark]
  dsimp only
  constructor
  · rw [hmarked.ahead]
    exact hstart.sees.shorter (plain_unaryOp hmark)
  · have hrest := hoperands (fun value next => post (.unary op value) next) fun next hread =>
      returns_pure.mpr (returns_pure.mp (hpost next (hmarked.trans hread)))
    rw [Level.parser, Parser.unary, returns_bind] at hrest
    rw [returns_prefixes hmarked.ended]
    apply hrest.mono
    intro more next hmore
    simpa only [returns_bind, returns_pure, List.foldl_append, List.foldl_cons, List.foldl_nil]
      using hmore

/-! ## Operators between values -/

theorem parses_binary {level : Level} {mark : Token} {back : List Token} {op : BinaryOp}
    {left right : Value} (hmark : level.operator? mark.kind = some op)
    (hright : Derives depth (.expr level.tighter right) middle back after)
    (ihLeft : Parses depth (.expr level left) before front middle)
    (ihRight : Parses depth (.expr level.tighter right) middle back after) :
    Parses depth (.expr level (.binary op left right)) before (front ++ mark :: back) after := by
  intro line levels context state rest hline hlevels hstart hstops post hpost
  rw [List.forall_mem_append, List.forall_mem_cons] at hline
  obtain ⟨hfront, hmarkLine, hback⟩ := hline
  have hbinary := Level.isBinary_of_operator? hmark
  rw [Level.border_of_isBinary hbinary] at hstops
  rw [List.append_assoc] at hstart
  have hends : Stops level.border line state.braceDepth (mark :: back ++ rest) := by
    rw [Level.border_of_isBinary hbinary]
    apply stops_cons (plain_operator hmark).1
    intro joined hjoined
    rw [joins?_of_operator? hmark] at hjoined
    cases hjoined
    exact Level.tighter_rank_lt hbinary
  apply ihLeft line levels context state _ hfront hlevels hstart hends _
  intro next hread
  have hsees := hread.sees (plain_operator hmark).1
  have hmarked := hread.advance (plain_operator hmark) (depthAfter_operator hmark _) hmarkLine
  rw [Level.resume_of_isBinary _ _ hbinary, returns_iterate, chainTurn, returns_bind,
    hsees.currentKind, hmark]
  dsimp only
  rw [returns_bind, hsees.advance, returns_bind]
  refine ihRight.settle hback hlevels (hright.start id hmarked hstart.room) ?_ _
    fun last hlast => ?_
  · rw [hmarked.braceDepth]
    exact hstops
  rw [returns_pure, returns_pure]
  constructor
  · rw [hread.ahead, hlast.ahead, List.length_append, List.length_cons]
    omega
  · have hrest := hpost last (hmarked.trans hlast)
    rwa [Level.resume_of_isBinary _ _ hbinary] at hrest

theorem parses_ternary {question colon : Token} {first second : Table String}
    {inside back : List Token} {condition thenBranch elseBranch : Value}
    (hquestion : question.kind = .question) (hcolon : colon.kind = .colon)
    (hthen : Derives depth (.nested .any thenBranch) first inside second)
    (helse : Derives depth (.nested .conditional elseBranch) second back after)
    (ihCondition : Parses depth (.expr .equality condition) before front first)
    (ihThen : Parses depth (.nested .any thenBranch) first inside second)
    (ihElse : Parses depth (.nested .conditional elseBranch) second back after) :
    Parses depth (.expr .ternary (.ternary condition thenBranch elseBranch)) before
      (front ++ question :: (inside ++ colon :: back)) after := by
  intro line levels context state rest hline hlevels hstart hstops post hpost
  rw [List.forall_mem_append, List.forall_mem_cons, List.forall_mem_append,
    List.forall_mem_cons] at hline
  obtain ⟨hfront, hquestionLine, hinside, hcolonLine, hback⟩ := hline
  have hassoc : front ++ question :: (inside ++ colon :: back) ++ rest =
      front ++ question :: (inside ++ colon :: (back ++ rest)) := by simp
  rw [hassoc] at hstart
  have hends : Stops .equality line state.braceDepth
      (question :: (inside ++ colon :: (back ++ rest))) := by
    apply stops_cons (by rw [hquestion]; rfl)
    intro joined hjoined
    rw [joins?, hquestion] at hjoined
    cases hjoined
    decide
  rw [Level.parser, conditional, returns_bind, returns_valueFailed hstart.calm, returns_bind]
  apply ihCondition.settle hfront hlevels hstart hends _
  intro next hread
  have hsees := hread.sees (by rw [hquestion]; rfl)
  have hasked := hread.advance (.of_kind hquestion rfl) (by rw [hquestion]; rfl) hquestionLine
  rw [returns_pure, returns_bind, returns_valueFailed hread.calm]
  dsimp only
  rw [Bool.false_and, if_neg Bool.false_ne_true, returns_bind, hsees.eat_of_eq hquestion,
    if_pos rfl, returns_bind]
  have hends' : Stops .coalesce line next.advance.braceDepth (colon :: (back ++ rest)) :=
    stops_cons (by rw [hcolon]; rfl) (ends_of_joins?_eq_none (by rw [joins?, hcolon]))
  refine ihThen line levels context next.advance _ hinside hlevels
    (hthen.start id hasked hstart.room) hends' _ fun last hlast => ?_
  have hsees' := hlast.sees (by rw [hcolon]; rfl)
  have hchosen := (hasked.trans hlast).advance (.of_kind hcolon rfl) (by rw [hcolon]; rfl)
    hcolonLine
  rw [returns_pure, returns_bind, hsees'.eat_of_eq hcolon, if_pos rfl, returns_bind]
  refine ihElse line levels context last.advance rest hback hlevels
    (helse.start id hchosen hstart.room) ?_ _ fun final hfinal => ?_
  · rw [hchosen.braceDepth]
    exact hstops
  · rw [returns_pure]
    exact hpost final (hchosen.trans hfinal)

/-- A value of the next level stands for itself where no operator of this level is. -/
theorem parses_looser {level : Level} {value : Value}
    (hvalue : Derives depth (.expr level.tighter value) before tokens after)
    (ih : Parses depth (.expr level.tighter value) before tokens after) :
    Parses depth (.expr level value) before tokens after := by
  intro line levels context state rest htokens hlevels hstart hstops post hpost
  by_cases hbinary : level.isBinary = true
  · rw [Level.border_of_isBinary hbinary] at hstops
    rw [Level.parser_of_isBinary _ hbinary, returns_bind]
    apply ih.settle htokens hlevels hstart hstops _
    intro next hread
    rw [returns_pure, ← Level.resume_of_isBinary _ _ hbinary]
    exact hpost next hread
  cases level with
  | ternary =>
      rw [Level.parser, conditional, returns_bind, returns_valueFailed hstart.calm, returns_bind]
      apply ih.settle htokens hlevels hstart (hstops.mono (by decide)) _
      intro next hread
      obtain ⟨follow, others, hfollow, hends⟩ := hstops.sees hread
      have hquestion : follow.kind ≠ .question := by
        intro hkind
        exact absurd (hends .ternary (by rw [joins?, hkind])) (Nat.lt_irrefl _)
      rw [returns_pure, returns_bind, returns_valueFailed hread.calm]
      dsimp only
      rw [Bool.false_and, if_neg Bool.false_ne_true, returns_bind, hfollow.eat_of_ne hquestion,
        if_neg Bool.false_ne_true]
      exact hpost next hread
  | unary =>
      obtain ⟨hempty, -⟩ | ⟨first, others, hfirst, hstarts⟩ := hvalue.head
      · exact hempty.elim
      have hnone : unaryOp? state.token.kind = none := by
        have hvisible := hstart.visible
        rw [hfirst] at hvisible
        rw [State.token_of_visible hvisible]
        have hprimary := hstarts.2 (by decide)
        cases hkind : first.kind <;> rw [hkind] at hprimary <;> first | rfl | contradiction
      rw [Level.parser, Parser.unary, returns_bind, returns_iterate,
        returns_prefixTurn hstart.ended, hnone]
      dsimp only
      rw [returns_bind]
      apply ih.settle htokens hlevels hstart (hstops.mono (by decide)) _
      intro next hread
      rw [returns_pure, returns_pure]
      exact returns_pure.mp (hpost next hread)
  | access =>
      rw [Level.parser, postfixed, returns_bind]
      apply ih.settle htokens hlevels hstart hstops _
      intro next hread
      rw [returns_pure]
      exact hpost next hread
  | primary => exact ih line levels context state rest htokens hlevels hstart hstops post hpost
  | _ => exact absurd rfl hbinary

end

end Grammar
end SceneLang

/-! ## Derivations are read -/

namespace SceneLang
namespace Grammar

open Parser

theorem Derives.parses {depth : Nat} {phrase : Phrase} {before after : Table String}
    {tokens : List Token} (h : Derives depth phrase before tokens after) :
    Parses depth phrase before tokens after := by
  induction h with
  | string hkind => exact parses_string hkind
  | number hkind => exact parses_number hkind
  | boolean hkind => exact parses_boolean hkind
  | null hkind => exact parses_null hkind
  | interpolation hkind => exact parses_interpolation hkind
  | reference hkind => exact parses_reference hkind
  | parens hopening hclosing hvalue ih => exact parses_parens hopening hclosing hvalue ih
  | array hopening hclosing hitems ih => exact parses_array hopening hclosing hitems ih
  | object hopening hclosing hentries ih => exact parses_object hopening hclosing hentries ih
  | member hdot hname _ ih => exact parses_member hdot hname ih
  | index hopening hclosing _ hkey ih ihKey => exact parses_index hopening hclosing hkey ih ihKey
  | call hopening hclosing _ hargs ih ihArgs => exact parses_call hopening hclosing hargs ih ihArgs
  | unary hmark hoperand ih => exact parses_unary hmark hoperand ih
  | binary hmark _ hright ihLeft ihRight => exact parses_binary hmark hright ihLeft ihRight
  | ternary hquestion hcolon _ hthen helse ihCondition ihThen ihElse =>
      exact parses_ternary hquestion hcolon hthen helse ihCondition ihThen ihElse
  | looser hvalue ih => exact parses_looser hvalue ih
  | nested _ ih => exact parses_nested ih
  | item hvalue ih => exact parses_item hvalue ih
  | spreadItem hdots hvalue ih => exact parses_spreadItem hdots hvalue ih
  | noItems => exact parses_noItems
  | lastItem hitem ih => exact parses_lastItem hitem ih
  | consItem hcomma hitem hitems ih ihItems => exact parses_consItem hcomma hitem hitems ih ihItems
  | noEntries => exact parses_noEntries
  | separator hmark hentries ih => exact parses_separator hmark hentries ih
  | field hkey hcolon hvalue hentries ih ihEntries =>
      exact parses_field hkey hcolon hvalue hentries ih ihEntries
  | shorthand hkey hnext hentries ih => exact parses_shorthand hkey hnext hentries ih
  | spreadEntry hdots hvalue hentries ih ihEntries =>
      exact parses_spreadEntry hdots hvalue hentries ih ihEntries

/-- In front of a value, and where it ends, the parser reads just the value. -/
theorem Derives.returns_value {depth line : Nat} {expected : Value} {before after : Table String}
    {tokens rest : List Token} {context : Context} {state : State}
    (h : Derives depth (.nested .any expected) before tokens after)
    (hline : ∀ token ∈ tokens, token.line = line)
    (hstart : Start depth before (tokens ++ rest) state)
    (hstops : Stops .coalesce line state.braceDepth rest) :
    Returns value context state fun found next =>
      found = expected ∧ Read line rest after state next := by
  have hlevels : depth ≤ maxNesting + 1 := by
    have hroom := hstart.room
    omega
  apply h.parses line (maxNesting + 1) context state rest hline hlevels hstart hstops
  intro next hread
  rw [returns_pure]
  exact ⟨rfl, hread⟩

/-- No tokens of a line stand for two values. -/
theorem Derives.unique {depth line : Nat} {one other : Value}
    {before after after' : Table String} {tokens : List Token}
    (h : Derives depth (.nested .any one) before tokens after)
    (h' : Derives depth (.nested .any other) before tokens after')
    (hline : ∀ token ∈ tokens, token.line = line) (hdepth : depth ≤ maxNesting) :
    one = other ∧ after = after' := by
  let last : Token := ⟨.eof, "", .point 0, .start⟩
  let state : State := { State.start .default (tokens ++ [last]) with expressions := before }
  have hended : Ended (tokens ++ [last]) :=
    (ended_append (List.cons_ne_nil last [])).mpr rfl
  have hroom : state.nesting + depth ≤ maxNesting := by
    rw [show state.nesting = 0 from rfl, Nat.zero_add]
    exact hdepth
  have hstart : Start depth before (tokens ++ [last]) state :=
    ⟨hended, visible_zero _, hroom, rfl, rfl⟩
  have hstops : Stops .coalesce line 0 [last] :=
    stops_cons rfl (ends_of_joins?_eq_none rfl)
  obtain ⟨found, next, hrun, rfl, hread⟩ : Returns value ⟨[], .default⟩ state fun found next =>
      found = one ∧ Read line [last] after state next := h.returns_value hline hstart hstops
  have hother : Returns value ⟨[], .default⟩ state fun found next =>
      found = other ∧ Read line [last] after' state next :=
    h'.returns_value hline hstart hstops
  obtain ⟨hsame, hread'⟩ := (returns_of_run hrun).mp hother
  exact ⟨hsame, hread.table.symm.trans hread'.table⟩

/-- What the grammar derives is what the parser reads.  In front of the tokens of a value that
stand on one line, with room for the values nested in it and with a token behind it that joins
nothing to it, the parser reads just these tokens, gives the value, and reports nothing. -/
theorem value_of_derives {depth line : Nat} {expected : Value} {before after : Table String}
    {tokens rest others : List Token} {follow : Token} {context : Context} {state : State}
    (h : Derives depth (.nested .any expected) before tokens after)
    (hline : ∀ token ∈ tokens, token.line = line) (hended : Ended state.ahead)
    (hvisible : state.visibleFrom 0 = tokens ++ rest)
    (hfollow : visible state.braceDepth rest = follow :: others)
    (hjoins : joins? line follow = none) (hroom : state.nesting + depth ≤ maxNesting)
    (hcalm : state.valueFailed = false) (htable : state.expressions = before) :
    ∃ next, value context state = .ok (expected, next) ∧ next.ahead = rest ∧
      next.log = state.log ∧ next.valueFailed = false ∧ next.braceDepth = state.braceDepth ∧
      next.nesting = state.nesting ∧ next.imports = state.imports ∧ next.expressions = after := by
  have hstart : Start depth before (tokens ++ rest) state :=
    ⟨hended, hvisible, hroom, hcalm, htable⟩
  have hstops : Stops .coalesce line state.braceDepth rest :=
    ⟨follow, others, hfollow, ends_of_joins?_eq_none hjoins⟩
  obtain ⟨found, next, hrun, rfl, hnext⟩ := h.returns_value hline hstart hstops
  exact ⟨next, hrun, hnext.ahead, hnext.log, hnext.calm, hnext.braceDepth, hnext.nesting,
    hnext.imports, hnext.table⟩

/-- The tokens of `a - b - {c}`, in which values are nested one level deep. -/
def differenceTokens : List Token :=
  [⟨.identifier, "a", ⟨0, 1⟩, ⟨1, 1⟩⟩, ⟨.minus, "-", ⟨2, 3⟩, ⟨1, 3⟩⟩,
    ⟨.identifier, "b", ⟨4, 5⟩, ⟨1, 5⟩⟩, ⟨.minus, "-", ⟨6, 7⟩, ⟨1, 7⟩⟩,
    ⟨.leftBrace, "\x7b", ⟨8, 9⟩, ⟨1, 9⟩⟩, ⟨.identifier, "c", ⟨9, 10⟩, ⟨1, 10⟩⟩,
    ⟨.rightBrace, "\x7d", ⟨10, 11⟩, ⟨1, 11⟩⟩]

/-- The value of `a - b - {c}`. -/
def difference : Value :=
  .binary .sub (.binary .sub (.reference "a") (.reference "b"))
    (.object [.field "c" (.reference "c")])

theorem derives_difference : Derives 1 (.nested .any difference) [] differenceTokens [] := by
  have ha := @Derives.reference 0 [] ⟨.identifier, "a", ⟨0, 1⟩, ⟨1, 1⟩⟩ rfl
  have hb := @Derives.reference 0 [] ⟨.identifier, "b", ⟨4, 5⟩, ⟨1, 5⟩⟩ rfl
  have hfields := @Derives.shorthand 0 [] [] ⟨.identifier, "c", ⟨9, 10⟩, ⟨1, 10⟩⟩ [] [] rfl
    (by simp) .noEntries
  have hc := @Derives.object 0 [] [] ⟨.leftBrace, "\x7b", ⟨8, 9⟩, ⟨1, 9⟩⟩
    ⟨.rightBrace, "\x7d", ⟨10, 11⟩, ⟨1, 11⟩⟩ _ _ rfl rfl hfields
  have hdifference : Derives 0 (.expr .sum difference) [] differenceTokens [] :=
    .binary rfl (.binary rfl (ha.weaken (by decide)) (hb.weaken (by decide)))
      (hc.weaken (by decide))
  exact .nested (hdifference.weaken (by decide))

theorem value_of_difference :
    ∃ next, value ⟨"a - b - \x7bc\x7d".toList, .default⟩
        (.start .default (differenceTokens ++ [⟨.eof, "", ⟨11, 11⟩, ⟨1, 12⟩⟩])) =
          .ok (difference, next) ∧
      next.ahead = [⟨.eof, "", ⟨11, 11⟩, ⟨1, 12⟩⟩] ∧ next.log = .empty .default ∧
      next.valueFailed = false ∧ next.braceDepth = 0 ∧ next.nesting = 0 ∧ next.imports = [] ∧
      next.expressions = [] :=
  have hline : ∀ token ∈ differenceTokens, token.line = 1 := by
    decide
  value_of_derives derives_difference hline rfl rfl rfl rfl (by decide) rfl rfl

end Grammar
end SceneLang
