import SceneLang.Proofs.Place.Trail
import SceneLang.Proofs.Token.Layout

/-!
# Blocks that are kept as text

The text of a block is what is written between the brace that opens it and the brace that matches
that one.  Only the tokens that are braces count: neither other brackets nor a brace within a quoted
text, a comment or an interpolation opens or closes a block.
-/

namespace SceneLang

open Token (countOf)

/-! ## Matching braces -/

namespace Token

theorem countOf_append (kind : TokenKind) (front back : List Token) :
    countOf kind (front ++ back) = countOf kind front + countOf kind back :=
  List.countP_append

/-- A brace that is open in front of the tokens is not closed among them. -/
def KeepsOpen (tokens : List Token) : Prop :=
  ∀ front, front <+: tokens → countOf .rightBrace front ≤ countOf .leftBrace front

/-- The tokens behind an opening brace, cut at the closing brace that matches it: in front of that
one there are as many opening braces as closing ones, and at no place fewer. -/
structure Matches (tokens inside : List Token) (closing : Token) (back : List Token) : Prop where
  split : tokens = inside ++ closing :: back
  closes : closing.kind = .rightBrace
  keepsOpen : KeepsOpen inside
  even : countOf .rightBrace inside = countOf .leftBrace inside

instance (tokens : List Token) : Decidable (KeepsOpen tokens) :=
  decidable_of_iff (∀ front ∈ tokens.inits, countOf .rightBrace front ≤ countOf .leftBrace front)
    ⟨fun h front hbegin => h front ((List.mem_inits _ _).mpr hbegin),
      fun h front hmem => h front ((List.mem_inits _ _).mp hmem)⟩

instance (tokens inside : List Token) (closing : Token) (back : List Token) :
    Decidable (Matches tokens inside closing back) :=
  decidable_of_iff (tokens = inside ++ closing :: back ∧ closing.kind = .rightBrace ∧
      KeepsOpen inside ∧ countOf .rightBrace inside = countOf .leftBrace inside)
    ⟨fun ⟨hsplit, hcloses, hopen, heven⟩ => ⟨hsplit, hcloses, hopen, heven⟩,
      fun h => ⟨h.split, h.closes, h.keepsOpen, h.even⟩⟩

/-- No brace among the tokens matches the one that opens a block in front of them. -/
def Unmatched (tokens : List Token) : Prop :=
  ∀ inside closing back, ¬Matches tokens inside closing back

theorem keepsOpen_nil : KeepsOpen [] := by
  intro front hbegin
  rw [List.prefix_nil.mp hbegin]
  exact Nat.le_refl _

/-- Tokens that close no brace keep it open. -/
theorem KeepsOpen.append {front back : List Token} (h : KeepsOpen front)
    (hback : ∀ token ∈ back, token.kind ≠ .rightBrace) : KeepsOpen (front ++ back) := by
  intro start hbegin
  obtain hfront | ⟨middle, rfl⟩ := List.prefix_or_prefix_of_prefix hbegin (List.prefix_append _ _)
  · exact h start hfront
  · have hmiddle : middle <+: back := (List.prefix_append_right_inj front).mp hbegin
    have hnone : countOf .rightBrace middle = 0 :=
      List.countP_eq_zero.mpr fun token hmem => by simp [hback token (hmiddle.subset hmem)]
    have hfront := h front (List.prefix_refl front)
    rw [countOf_append, countOf_append]
    omega

theorem KeepsOpen.concat {front : List Token} {token : Token} (h : KeepsOpen front)
    (hlast : countOf .rightBrace (front ++ [token]) ≤ countOf .leftBrace (front ++ [token])) :
    KeepsOpen (front ++ [token]) := by
  intro start hbegin
  obtain rfl | hfront := List.prefix_concat_iff.mp hbegin
  · exact hlast
  · exact h start hfront

namespace Matches

variable {tokens inside inside' back back' : List Token} {closing closing' : Token}

/-- Up to the brace that matches it the opening brace is closed. -/
theorem not_keepsOpen (h : Matches tokens inside closing back)
    (hbegin : inside ++ [closing] <+: back') : ¬KeepsOpen back' := by
  intro hopen
  have hle := hopen _ hbegin
  rw [countOf_append_singleton, countOf_append_singleton, h.closes, h.even] at hle
  exact Nat.not_succ_le_self _ hle

theorem length_le (h : Matches tokens inside closing back)
    (h' : Matches tokens inside' closing' back') : inside'.length ≤ inside.length := by
  by_contra hlt
  have hfront : inside ++ [closing] <+: tokens := ⟨back, by rw [h.split]; simp⟩
  have hfront' : inside' <+: tokens := ⟨closing' :: back', h'.split.symm⟩
  refine h.not_keepsOpen (List.prefix_of_prefix_length_le hfront hfront' ?_) h'.keepsOpen
  rw [List.length_append, List.length_singleton]
  omega

/-- No more than one brace matches an opening one. -/
theorem unique (h : Matches tokens inside closing back)
    (h' : Matches tokens inside' closing' back') :
    inside = inside' ∧ closing = closing' ∧ back = back' := by
  have hlength := Nat.le_antisymm (h'.length_le h) (h.length_le h')
  obtain ⟨hinside, hrest⟩ := List.append_inj (h.split.symm.trans h'.split) hlength
  exact ⟨hinside, List.cons.inj hrest⟩

end Matches

theorem KeepsOpen.unmatched {tokens : List Token} (h : KeepsOpen tokens) : Unmatched tokens :=
  fun inside closing back hmatches =>
    hmatches.not_keepsOpen ⟨back, by rw [hmatches.split]; simp⟩ h

/-! ## Texts beside tokens -/

/-- The source strictly between two of its tokens. -/
def Between (source : List Char) (opening closing : Token) (text : List Char) : Prop :=
  ∃ front first last back, source = front ++ first ++ text ++ last ++ back ∧
    opening.Covers front first ∧ closing.Covers (front ++ first ++ text) last

/-- The source behind one of its tokens. -/
def Trails (source : List Char) (opening : Token) (text : List Char) : Prop :=
  ∃ front first, source = front ++ first ++ text ∧ opening.Covers front first

variable {source text : List Char} {opening closing : Token}

theorem Between.slice (h : Between source opening closing text) :
    Text.slice source opening.span.stop (max closing.span.start opening.span.stop) = text := by
  obtain ⟨front, first, last, back, rfl, hopening, hclosing⟩ := h
  have hle : Text.byteLength (front ++ first) ≤ Text.byteLength (front ++ first ++ text) := by
    rw [Text.byteLength_append (front ++ first)]
    exact Nat.le_add_right _ _
  rw [hopening.span, hclosing.span, Nat.max_eq_left hle, List.append_assoc _ last,
    List.append_assoc _ text, Text.slice_between]

theorem Trails.slice (h : Trails source opening text) :
    Text.slice source opening.span.stop (max (Text.byteLength source) opening.span.stop) =
      text := by
  obtain ⟨front, first, rfl, hopening⟩ := h
  have hle : Text.byteLength (front ++ first) ≤ Text.byteLength (front ++ first ++ text) := by
    rw [Text.byteLength_append (front ++ first)]
    exact Nat.le_add_right _ _
  have hslice := Text.slice_between (front ++ first) text []
  rw [List.append_nil] at hslice
  rw [hopening.span, Nat.max_eq_left hle, hslice]

end Token

/-- What is read of a text behind one of its tokens. -/
theorem Tiles.exists_behind {front rest : List Char} {tokens before after : List Token}
    {token : Token} (h : Tiles front rest tokens) (hsplit : tokens = before ++ token :: after) :
    ∃ gap inside back, rest = gap ++ inside ++ back ∧ token.Covers (front ++ gap) inside ∧
      Tiles (front ++ gap ++ inside) back after := by
  induction h generalizing before with
  | done => simp at hsplit
  | @token front inside rest first tokens hcovers hrest ih =>
      cases before with
      | nil =>
          obtain ⟨rfl, rfl⟩ := List.cons.inj hsplit
          exact ⟨[], inside, rest, rfl, by rwa [List.append_nil], by rwa [List.append_nil]⟩
      | cons other before =>
          obtain ⟨gap, inside', back, rfl, hcovers', hback⟩ := ih (List.cons.inj hsplit).2
          refine ⟨inside ++ gap, inside', back, by simp only [List.append_assoc], ?_, ?_⟩
          · rwa [← List.append_assoc]
          · rwa [← List.append_assoc front]
  | @filler front inside rest tokens _ _ ih =>
      obtain ⟨gap, inside', back, rfl, hcovers', hback⟩ := ih hsplit
      refine ⟨inside ++ gap, inside', back, by simp only [List.append_assoc], ?_, ?_⟩
      · rwa [← List.append_assoc]
      · rwa [← List.append_assoc front]

namespace Token

variable {source : List Char} {front inside back : List Token} {opening closing : Token}

theorem exists_between
    (h : tokenize source = front ++ opening :: (inside ++ closing :: back)) :
    ∃ text, Between source opening closing text := by
  have htiles : Tiles [] source (tokenize source) := Scanner.tiles_tokens rfl
  obtain ⟨before, first, rest, rfl, hopening, hrest⟩ := htiles.exists_behind h
  obtain ⟨text, last, back, rfl, hclosing, -⟩ := hrest.exists_behind rfl
  exact ⟨text, before, first, last, back, by simp only [List.append_assoc], hopening, hclosing⟩

theorem exists_trails (h : opening ∈ tokenize source) : ∃ text, Trails source opening text := by
  obtain ⟨front, first, text, hsource, hcovers⟩ := Parser.exists_covers h
  exact ⟨text, front, first, hsource, hcovers⟩

/-- Nothing stands behind the end of a text. -/
theorem eq_nil_of_eof {source : List Char} {front back : List Token} {last : Token}
    (h : tokenize source = front ++ last :: back) (heof : last.kind = .eof) : back = [] := by
  obtain ⟨tokens, scanner, final, hrun, -, htokens⟩ := (Scanner.ofText source).exists_emits_finish
  have htokens : tokenize source = tokens ++ [final] := htokens
  obtain rfl | ⟨others, other, rfl⟩ := back.eq_nil_or_concat'
  · rfl
  · rw [htokens, ← List.cons_append, ← List.append_assoc] at h
    obtain ⟨rfl, -⟩ := List.append_inj' h rfl
    obtain ⟨before, after, hbefore, hemit, -⟩ := hrun.cut
    exact absurd heof (Scanner.ne_eof_of_emit hbefore hemit)

end Token

end SceneLang

namespace SceneLang
namespace Parser

open Token (countOf KeepsOpen Matches Unmatched Between Trails)

/-! ## Stepping over a block

Within braces layout is not seen, and no matter what stands there nothing but the cursor moves.
-/

variable {source : List Char} {options : ParseOptions} {context : Context}
  {state outer now : State} {opening : Token} {tokens : List Token} {opened : Nat}

/-- The state with the cursor of another one. -/
def State.withCursor (state cursor : State) : State :=
  { state with
    ahead := cursor.ahead
    braceDepth := cursor.braceDepth
    previous := cursor.previous }

/-- Of the tokens behind an opening brace some have been stepped over, and so many braces are open
behind them, that one included. -/
structure Skipping (outer : State) (tokens : List Token) (opened : Nat) (now : State) : Prop where
  ended : Ended now.ahead
  pos : 0 < opened
  depth : now.braceDepth = outer.braceDepth + opened
  passed : ∃ front, tokens = front ++ now.ahead ∧ KeepsOpen front ∧
    countOf .rightBrace front + opened = countOf .leftBrace front + 1
  still : now = outer.withCursor now

theorem skipping_advance (hended : Ended state.ahead)
    (hvisible : state.visibleFrom 0 = opening :: tokens) (hopening : opening.kind = .leftBrace) :
    Skipping state tokens 1 state.advance := by
  have heof : opening.kind ≠ .eof := by simp [hopening]
  have hadvance := State.advance_of_visible hvisible heof
  have hkind := State.token_of_visible hvisible ▸ heof
  rw [hopening] at hadvance
  refine ⟨(advance_keeps hended).moved.ended hended, Nat.one_pos, ?_, ⟨[], ?_, ?_, rfl⟩, ?_⟩
  · rw [hadvance]
    rfl
  · rw [hadvance]
    rfl
  · exact Token.keepsOpen_nil
  · rw [hadvance]
    rfl

namespace Skipping

/-- The tokens that are passed over up to the current one and those behind it. -/
theorem exists_passed (h : Skipping outer tokens opened now) : ∃ front rest,
    now.visibleFrom 0 = now.token :: rest ∧ tokens = front ++ now.token :: rest ∧ KeepsOpen front ∧
      countOf .rightBrace front + opened = countOf .leftBrace front + 1 := by
  obtain ⟨front, htokens, hopen, hcount⟩ := h.passed
  obtain ⟨rest, hvisible⟩ := exists_visibleFrom h.ended 0
  obtain ⟨hidden, hsplit, hlayout⟩ := visible_append now.braceDepth now.ahead
  have hvisible : now.visibleFrom 0 = now.token :: rest := hvisible
  have hplain (kind : TokenKind) (hkind : kind.isLayout = false) : countOf kind hidden = 0 := by
    refine List.countP_eq_zero.mpr fun token hmem heq => ?_
    have hlayout := hlayout token hmem
    rw [of_decide_eq_true heq, hkind] at hlayout
    cases hlayout
  refine ⟨front ++ hidden, rest, hvisible, ?_, hopen.append fun token hmem hkind => ?_, ?_⟩
  · rw [htokens, List.append_assoc, ← hvisible]
    exact congrArg (front ++ ·) hsplit
  · have hlayout := hlayout token hmem
    rw [hkind] at hlayout
    cases hlayout
  · rw [Token.countOf_append, Token.countOf_append, hplain .rightBrace rfl, hplain .leftBrace rfl]
    exact hcount

theorem still_advance (h : Skipping outer tokens opened now) :
    now.advance = outer.withCursor now.advance := by
  unfold State.advance
  split
  · exact h.still
  split
  · exact h.still
  · conv_lhs => rw [h.still]
    rfl

/-- A token is stepped over: a brace opens one more or closes the last one, as long as the one in
front of the tokens stays open. -/
theorem advance (h : Skipping outer tokens opened now) (heof : now.token.kind ≠ .eof) {count : Nat}
    (hpos : 0 < count) (hcount : (if now.token.kind = .rightBrace then 1 else 0) + count =
      opened + if now.token.kind = .leftBrace then 1 else 0) :
    Skipping outer tokens count now.advance := by
  have hreads := advance_reads h.ended heof
  obtain ⟨front, rest, hvisible, htokens, hopen, hfront⟩ := h.exists_passed
  have hadvance := State.advance_of_visible hvisible heof
  have hdepth : now.advance.braceDepth = depthAfter (outer.braceDepth + opened) now.token.kind := by
    rw [hadvance, ← h.depth]
  have heven : countOf .rightBrace (front ++ [now.token]) + count =
      countOf .leftBrace (front ++ [now.token]) + 1 := by
    rw [Token.countOf_append_singleton, Token.countOf_append_singleton]
    omega
  refine ⟨hreads.moved.ended h.ended, hpos, hdepth.trans ?_,
    ⟨front ++ [now.token], ?_, hopen.concat (by omega), heven⟩, h.still_advance⟩
  · unfold depthAfter
    split
    next hkind => simp only [hkind, reduceCtorEq, if_true, if_false] at hcount; omega
    next hkind => simp only [hkind, reduceCtorEq, if_true, if_false] at hcount; omega
    next hleft hright => rw [if_neg hright, if_neg hleft] at hcount; omega
  · rw [hadvance, htokens, List.append_assoc, List.singleton_append]

/-- The closing brace is stepped over that matches the one in front of the tokens. -/
theorem closed (h : Skipping outer tokens 1 now) (hkind : now.token.kind = .rightBrace) :
    ∃ inside back closing, Matches tokens inside closing back ∧
      now.advance = { outer with ahead := back, previous := some closing } := by
  obtain ⟨front, rest, hvisible, htokens, hopen, hfront⟩ := h.exists_passed
  have hadvance := State.advance_of_visible hvisible (by simp [hkind])
  refine ⟨front, rest, now.token, ⟨htokens, hkind, hopen, Nat.succ_inj.mp hfront⟩, ?_⟩
  rw [h.still_advance, hadvance, hkind, State.withCursor, h.depth]
  rfl

/-- Behind the last token no brace of the tokens closes the one in front of them. -/
theorem keepsOpen (h : Skipping outer tokens opened now) {front : List Token}
    (hsource : tokenize source = front ++ tokens) (heof : now.token.kind = .eof) :
    KeepsOpen tokens := by
  obtain ⟨passed, rest, -, rfl, hopen, -⟩ := h.exists_passed
  rw [← List.append_assoc] at hsource
  rw [Token.eq_nil_of_eof hsource heof]
  refine hopen.append fun token hmem => ?_
  rw [List.mem_singleton.mp hmem, heof]
  simp

end Skipping

/-- How a block comes to its end: at the brace that matches the opening one, or at the last
token. -/
inductive Skipped (outer : State) (tokens : List Token) : Nat → State → Prop
  | closed {inside back : List Token} {closing : Token} (h : Matches tokens inside closing back) :
      Skipped outer tokens 0 { outer with ahead := back, previous := some closing }
  | unclosed {opened : Nat} {now : State} (h : Skipping outer tokens opened now)
      (heof : now.token.kind = .eof) : Skipped outer tokens opened now

theorem returns_closingTurn_brace (h : Skipping outer tokens opened now) :
    Returns (closingTurn .brace opened) context now fun result next =>
      match result with
      | .done count => Skipped outer tokens count next
      | .yield count =>
          Skipping outer tokens count next ∧ next.ahead.length < now.ahead.length := by
  rw [closingTurn, returns_bind, returns_currentKind h.ended, returns_ite]
  refine ⟨fun heof => returns_pure.mpr (.unclosed h heof), fun heof => ?_⟩
  have hshorter := (advance_reads h.ended heof).shorter
  rw [returns_bind, returns_advance h.ended, returns_ite]
  refine ⟨fun hkind => ?_, fun hleft => returns_ite.mpr ⟨fun hkind => ?_, fun hright => ?_⟩⟩
  · have hkind : now.token.kind = .leftBrace := hkind
    exact returns_pure.mpr ⟨h.advance heof (Nat.succ_pos _) (by simp [hkind]), hshorter⟩
  · have hkind : now.token.kind = .rightBrace := hkind
    rw [returns_bind, returns_lower h.pos, returns_pure]
    by_cases hlast : opened - 1 = 0
    · obtain rfl : opened = 1 := by have := h.pos; omega
      obtain ⟨inside, back, closing, hmatches, hnext⟩ := h.closed hkind
      rw [hnext]
      exact .closed hmatches
    · rw [if_neg hlast]
      have hcount : 1 + (opened - 1) = opened := by omega
      exact ⟨h.advance heof (Nat.pos_of_ne_zero hlast) (by simpa [hkind]), hshorter⟩
  · have hleft : now.token.kind ≠ .leftBrace := hleft
    have hright : now.token.kind ≠ .rightBrace := hright
    exact returns_pure.mpr ⟨h.advance heof h.pos (by simp [hleft, hright]), hshorter⟩

theorem returns_skipBalanced_brace (hended : Ended state.ahead)
    (hvisible : state.visibleFrom 0 = opening :: tokens) (hopening : opening.kind = .leftBrace) :
    Returns skipBalanced context state fun closed next =>
      ∃ opened, closed = decide (opened = 0) ∧ Skipped state tokens opened next := by
  have hkind : state.token.kind = .leftBrace := State.token_of_visible hvisible ▸ hopening
  rw [skipBalanced, returns_bind, returns_currentKind hended, hkind]
  have hloop : Returns (iterate 1 (closingTurn .brace)) context state.advance
      (Skipped state tokens) :=
    .iterate (Skipping state tokens) (skipping_advance hended hvisible hopening) fun _ _ hskips =>
      (returns_closingTurn_brace hskips).mono fun result _ hresult => by
        cases result <;> exact hresult
  exact returns_bind.mpr ((returns_advance hended).mpr (returns_bind.mpr (hloop.mono
    fun opened next hskipped => returns_pure.mpr ⟨opened, rfl, hskipped⟩)))

/-! ## The text of a block -/

/-- The error that a block is not closed, reported where the token read last ends. -/
def unclosedBlock (source : List Char) (opening : Token) (last : Option Token) : Diagnostic :=
  (Diagnostic.missingBrace (.point ((last.map Token.span).getD (.point 0)).stop)
    (endOf source last)).withLabel opening.span "block opened here"

/-- What becomes of a block of a text, from its opening brace and the tokens behind it: what its
text is before it is trimmed, and the state behind the block. -/
inductive Captured (source : List Char) (state : State) (opening : Token) (tokens : List Token) :
    List Char → State → Prop
  | closed {inside back : List Token} {closing : Token} {text : List Char}
      (hmatches : Matches tokens inside closing back)
      (htext : Between source opening closing text) :
      Captured source state opening tokens text
        { state with ahead := back, previous := some closing }
  | unclosed {text : List Char} {next : State} (hunmatched : Unmatched tokens)
      (htext : Trails source opening text) (heof : next.token.kind = .eof)
      (hnext : next = { state.withCursor next with
        log := state.log.push (unclosedBlock source opening next.previous) }) :
      Captured source state opening tokens text next

theorem Stands.exists_tokens (h : Stands source state)
    (hvisible : state.visibleFrom 0 = opening :: tokens) :
    ∃ front, tokenize source = front ++ opening :: tokens := by
  obtain ⟨inner, htokens, -⟩ := h.read
  obtain ⟨hidden, rest, hvisible', hahead⟩ := h.exists_ahead
  rw [← hvisible', hvisible] at hahead
  exact ⟨inner ++ hidden, by rw [htokens, hahead]; simp only [List.append_assoc, List.nil_append]⟩

theorem returns_sliceBetween {start stop : Nat} {post : List Char → State → Prop} :
    Returns (sliceBetween start stop) context state post ↔
      post (Text.slice context.source start (max stop start)) state := by
  rw [sliceBetween, returns_bind, returns_read, returns_pure]

theorem returns_reportUnclosed {post : Unit → State → Prop} :
    Returns (reportUnclosed opening) context state post ↔
      post () { state with
        log := state.log.push (unclosedBlock context.source opening state.previous) } := by
  rw [unclosedBlock, reportUnclosed, previousSpan, returns_bind, returns_bind, returns_get,
    returns_pure, returns_bind, returns_endPosition, report, returns_modify]

/-- A block is stepped over, and its text is cut out of the source as it is written there. -/
theorem returns_captureBlock (h : Stands source state)
    (hvisible : state.visibleFrom 0 = opening :: tokens) (hopening : opening.kind = .leftBrace) :
    Returns captureBlock ⟨source, options⟩ state fun found next => ∃ text,
      found = some (String.ofList (Text.trim text)) ∧
        Captured source state opening tokens text next := by
  obtain ⟨front, htokens⟩ := h.exists_tokens hvisible
  rw [captureBlock, returns_bind, returns_current h.ended, State.token_of_visible hvisible,
    if_pos hopening, returns_bind]
  refine (returns_skipBalanced_brace h.ended hvisible hopening).mono ?_
  rintro _ next ⟨opened, rfl, hskipped⟩
  cases hskipped with
  | closed hmatches =>
      obtain ⟨text, htext⟩ := Token.exists_between (hmatches.split ▸ htokens)
      refine returns_bind.mpr (returns_bind.mpr (returns_get.mpr (returns_pure.mpr ?_)))
      refine returns_bind.mpr (returns_sliceBetween.mpr (returns_pure.mpr ⟨text, ?_, ?_⟩))
      · rw [← htext.slice]
        rfl
      · exact .closed hmatches htext
  | unclosed hskips heof =>
      have hmem : opening ∈ tokenize source := by simp [htokens]
      obtain ⟨text, htext⟩ := Token.exists_trails hmem
      rw [decide_eq_false (Nat.ne_of_gt hskips.pos)]
      refine returns_bind.mpr (returns_reportUnclosed.mpr ?_)
      refine returns_bind.mpr (returns_read.mpr (returns_bind.mpr (returns_sliceBetween.mpr ?_)))
      refine returns_pure.mpr ⟨text, by rw [htext.slice], ?_⟩
      have htokens' : tokenize source = front ++ [opening] ++ tokens := by simp [htokens]
      refine .unclosed (hskips.keepsOpen htokens' heof).unmatched htext heof ?_
      conv_lhs => rw [hskips.still]
      rfl

end Parser
end SceneLang
