import SceneLang.Proofs.Margins.Lines
import SceneLang.Proofs.Token.Tiling

/-!
# Places of layout

Where the layout tokens of a text are that stand outside of braces, and what a scanner still has
to emit of them: what it owes at the head of a line, what ends the text, and what is further on.
-/

namespace SceneLang

open SceneLang.Parser (depthAfter)
open Text (isMargin ink Aligned Corresponds byteLength)

/-! ## Layout outside of braces -/

/-- Layout tokens outside of braces, each with the number of characters other than spaces and
tabs from its place on. -/
def outerLayout (text : List Char) : Nat → List Token → List (TokenKind × Nat)
  | _, [] => []
  | depth, token :: rest =>
      if depth = 0 ∧ token.kind.isLayout = true then
        (token.kind, ink ((Text.after? token.span.start text).getD [])) ::
          outerLayout text depth rest
      else outerLayout text (depthAfter depth token.kind) rest

/-- Outside of braces the same layout tokens are at the same places of the two texts. -/
def SameOuterLayout (source other : List Char) : Prop :=
  outerLayout source 0 (tokenize source) = outerLayout other 0 (tokenize other)

instance (source other : List Char) : Decidable (SameOuterLayout source other) :=
  inferInstanceAs (Decidable (_ = _))

section

variable {text : List Char} {depth : Nat} {token : Token} {tokens : List Token}

theorem outerLayout_of_shown (hlayout : token.kind.isLayout = true) :
    outerLayout text 0 (token :: tokens) =
      (token.kind, ink ((Text.after? token.span.start text).getD [])) ::
        outerLayout text 0 tokens := by
  rw [outerLayout, if_pos ⟨rfl, hlayout⟩]

theorem outerLayout_of_plain (hlayout : token.kind.isLayout = false) :
    outerLayout text depth (token :: tokens) =
      outerLayout text (depthAfter depth token.kind) tokens := by
  rw [outerLayout, if_neg (by simp [hlayout])]

theorem outerLayout_of_hidden (hdepth : 0 < depth) (hlayout : token.kind.isLayout = true) :
    outerLayout text depth (token :: tokens) = outerLayout text depth tokens := by
  rw [outerLayout, if_neg (by omega), Woven.depthAfter_of_layout hlayout]

theorem outerLayout_append_of_hidden {hidden : List Token} (hdepth : 0 < depth)
    (hlayout : ∀ token ∈ hidden, token.kind.isLayout = true) :
    outerLayout text depth (hidden ++ tokens) = outerLayout text depth tokens := by
  induction hidden with
  | nil => rfl
  | cons token hidden ih =>
      obtain ⟨htoken, hhidden⟩ := List.forall_mem_cons.mp hlayout
      rw [List.cons_append, outerLayout_of_hidden hdepth htoken, ih hhidden]

theorem exists_of_mem_outerLayout {entry : TokenKind × Nat}
    (h : entry ∈ outerLayout text depth tokens) :
    ∃ token ∈ tokens, token.kind.isLayout = true ∧
      ink ((Text.after? token.span.start text).getD []) = entry.2 := by
  induction tokens generalizing depth with
  | nil => cases h
  | cons first tokens ih =>
      have hrest {depth : Nat} (hmem : entry ∈ outerLayout text depth tokens) :
          ∃ token ∈ first :: tokens, token.kind.isLayout = true ∧
            ink ((Text.after? token.span.start text).getD []) = entry.2 := by
        obtain ⟨token, htoken, hplace⟩ := ih hmem
        exact ⟨token, List.mem_cons_of_mem _ htoken, hplace⟩
      rw [outerLayout] at h
      split at h
      next hshown =>
        obtain rfl | hmem := List.mem_cons.mp h
        · exact ⟨first, List.mem_cons_self, hshown.2, rfl⟩
        · exact hrest hmem
      next => exact hrest h

end

/-! ## Cursors side by side -/

namespace Cursor

theorem offset_skip (cursor : Cursor) (width : Nat) :
    (cursor.skip width).offset = cursor.offset + byteLength (cursor.rest.take width) := by
  induction width generalizing cursor with
  | zero => rfl
  | succ width ih =>
      rw [skip, ih, rest_next]
      unfold next
      split
      next hrest => rw [hrest, List.tail_nil, List.take_nil, List.take_nil]
      next c rest hrest =>
        rw [hrest, List.tail_cons, List.take_succ_cons, Text.byteLength_cons, Nat.add_assoc]

theorem line_skip (cursor : Cursor) (width : Nat) :
    (cursor.skip width).position.line =
      cursor.position.line + (cursor.rest.take width).count '\n' := by
  induction width generalizing cursor with
  | zero => rfl
  | succ width ih =>
      rw [skip, ih, rest_next]
      unfold next
      split
      next hrest => rw [hrest, List.tail_nil, List.take_nil, List.take_nil]
      next c rest hrest =>
        rw [hrest, List.tail_cons, List.take_succ_cons, List.count_cons]
        by_cases hbreak : c = '\n'
        · subst hbreak
          simp only [if_true, beq_self_eq_true]
          omega
        · simp [hbreak]

theorem skip_add (cursor : Cursor) (width more : Nat) :
    cursor.skip (width + more) = (cursor.skip width).skip more := by
  induction width generalizing cursor with
  | zero => rw [Nat.zero_add]; rfl
  | succ width ih => rw [Nat.add_right_comm, skip, skip, ih]

theorem In.ink_eq {text : List Char} {cursor : Cursor} (h : cursor.In text) :
    ink ((Text.after? cursor.offset text).getD []) = ink cursor.rest := by
  obtain ⟨front, rest, rfl, rfl⟩ := h
  rw [show (behind front rest).offset = byteLength front from rfl, Text.after?_byteLength]
  rfl

/-- The cursors stand on the same line of two texts that differ in margins from there on. -/
structure Along (source other : List Char) (within : Nat → Prop) (cursor cursor' : Cursor) :
    Prop where
  here : cursor.In source
  there : cursor'.In other
  line : cursor.position.line = cursor'.position.line
  rest : Remargined within cursor.rest cursor'.rest

namespace Along

variable {source other : List Char} {within within' : Nat → Prop} {cursor cursor' : Cursor}

theorem mono (h : Along source other within cursor cursor')
    (himp : ∀ count ≤ cursor.rest.length, within count → within' count) :
    Along source other within' cursor cursor' :=
  { h with rest := h.rest.mono himp }

theorem corresponds (h : Along source other within cursor cursor') :
    Corresponds source other cursor.offset cursor'.offset := by
  obtain ⟨front, rest, hsource, hcursor⟩ := h.here
  obtain ⟨front', rest', hother, hcursor'⟩ := h.there
  have hrest := h.rest
  rw [hcursor, hcursor'] at hrest
  rw [hcursor, hcursor']
  exact ⟨front, rest, front', rest', hsource, hother, rfl, rfl, hrest.aligned⟩

/-- Behind as many line breaks the cursors are on the same line again. -/
theorem of_skips (h : Along source other within cursor cursor') (width width' : Nat)
    (hline : (cursor.rest.take width).count '\n' = (cursor'.rest.take width').count '\n')
    (hrest : Remargined within' (cursor.rest.drop width) (cursor'.rest.drop width')) :
    Along source other within' (cursor.skip width) (cursor'.skip width') where
  here := h.here.skip width
  there := h.there.skip width'
  line := by rw [line_skip, line_skip, h.line, hline]
  rest := by rwa [rest_skip, rest_skip]

section

variable {width : Nat} (h : Along source other within cursor cursor')
  (hstays : Remargined.Stays within cursor.rest width)
include h hstays

theorem skip : Along source other within (cursor.skip width) (cursor'.skip width) :=
  h.of_skips width width (by rw [h.rest.take hstays]) (h.rest.drop hstays)

theorem exists_bytes : ∃ bytes, (cursor.skip width).offset = cursor.offset + bytes ∧
    (cursor'.skip width).offset = cursor'.offset + bytes := by
  refine ⟨byteLength (cursor.rest.take width), offset_skip cursor width, ?_⟩
  rw [offset_skip, h.rest.take hstays]

end

end Along

end Cursor

/-! ## What is owed, and the end of a text -/

namespace Lexeme

variable {c : Char} {rest : List Char} {lexeme : Lexeme}

/-- A brace is a lexeme of one character. -/
theorem eq_plain_of_brace {afterValue : Bool} (h : scan afterValue c rest = some lexeme)
    (hbrace : lexeme.kind.isBrace = true) : lexeme = plain lexeme.kind 1 := by
  unfold scan at h
  dsimp only at h
  split at h
  · cases h
    contradiction
  split at h
  · split at h <;> cases h <;> contradiction
  split at h
  · cases h
    contradiction
  split at h
  · cases h
    contradiction
  split at h
  · cases h
    have hword : (wordKind (c :: rest.takeWhile isNamePart)).isBrace = true := hbrace
    unfold wordKind at hword
    split at hword
    · contradiction
    split at hword <;> contradiction
  · unfold symbol? at h
    dsimp only at h
    split at h <;> (repeat' split at h) <;> cases h <;> first | rfl | contradiction

end Lexeme

namespace Scanner

variable {s s' next : Scanner} {count depth : Nat} {source other : List Char}

/-- The state in which nothing is owed any more. -/
def paid (s : Scanner) : Scanner :=
  { s with owed := [] }

theorem tokens_of_owed (hvalue : s.afterValue = false) :
    s.tokens = s.owed.map s.mark ++ s.paid.tokens := by
  generalize howed : s.owed = owed
  induction owed generalizing s with
  | nil => exact congrArg tokens (by rw [paid, ← howed])
  | cons kind owed ih =>
      rw [tokens_of_emit (step_of_owed howed), hvalue.symm, @ih { s with owed := owed } hvalue rfl]
      rfl

theorem breaksWithin_of_owed (hvalue : s.afterValue = false)
    (hlayout : ∀ kind ∈ s.owed, kind.isLayout = true) :
    s.breaksWithin count depth = s.paid.breaksWithin count depth := by
  generalize howed : s.owed = owed
  induction owed generalizing s with
  | nil => rw [paid, ← howed]
  | cons kind owed ih =>
      by_cases hlength : s.cursor.rest.length = count
      · rw [breaksWithin_of_length hlength,
          breaksWithin_of_length (s := s.paid) hlength]
        rfl
      · rw [howed] at hlayout
        obtain ⟨hkind, hrest⟩ := List.forall_mem_cons.mp hlayout
        rw [breaksWithin_of_emit hlength (step_of_owed howed), hvalue.symm,
          show (s.mark kind).kind = kind from rfl, Woven.depthAfter_of_layout hkind,
          @ih { s with owed := owed } hvalue hrest rfl]
        rfl

theorem isLayout_of_owed_startLine (howed : s.owed = []) :
    ∀ kind ∈ s.startLine.owed, kind.isLayout = true := by
  unfold startLine
  dsimp only
  split
  next =>
    intro kind hmem
    obtain rfl | rfl := mem_relevel hmem <;> rfl
  next =>
    rw [show s.owed = [] from howed]
    exact fun kind hmem => nomatch hmem

/-- What the head of a line is made of, behind some of its margin. -/
theorem lineHead_margin {blanks : List Char} (hblanks : ∀ c ∈ blanks, isMargin c = true)
    (rest : List Char) :
    lineHead (blanks ++ rest) = (blanks.length + (lineHead rest).1, (lineHead rest).2) := by
  have hinline : ∀ c ∈ blanks, Lexeme.isInlineBlank c = true := by
    intro c hmem
    have hmargin := hblanks c hmem
    rw [isMargin] at hmargin
    rw [Lexeme.isInlineBlank, hmargin, Bool.true_or]
  have hdrop : (blanks ++ rest).drop
      (blanks.length + (rest.takeWhile Lexeme.isInlineBlank).length) =
      rest.drop (rest.takeWhile Lexeme.isInlineBlank).length := by
    rw [List.drop_append, List.drop_eq_nil_of_le (Nat.le_add_right _ _), List.nil_append,
      Nat.add_sub_cancel_left]
  unfold lineHead
  dsimp only
  rw [List.takeWhile_append_of_pos hinline, List.length_append, hdrop]
  generalize (rest.takeWhile Lexeme.isInlineBlank).length = width
  split <;> simp only [Nat.add_assoc]

/-- Behind the head of a line that holds more there is a character that is no blank. -/
theorem exists_cons_of_lineHead {text : List Char} (h : (lineHead text).2 = true) :
    ∃ c rest, text.drop (lineHead text).1 = c :: rest ∧ c ≠ '\n' ∧ isMargin c = false := by
  have hblank (text : List Char) {c : Char} {rest : List Char}
      (hdrop : text.drop (text.takeWhile Lexeme.isInlineBlank).length = c :: rest) :
      isMargin c = false := by
    rw [Lexeme.drop_length_takeWhile] at hdrop
    have hhead := List.head?_dropWhile_not Lexeme.isInlineBlank text
    rw [hdrop, List.head?_cons] at hhead
    have hinline : Lexeme.isInlineBlank c = false := hhead
    rw [Lexeme.isInlineBlank, Bool.or_eq_false_iff] at hinline
    exact hinline.1
  unfold lineHead at h ⊢
  dsimp only at h ⊢
  split at h
  · contradiction
  · contradiction
  · contradiction
  · contradiction
  next comment hdrop =>
    generalize (text.takeWhile Lexeme.isInlineBlank).length = width at hdrop h ⊢
    have hbehind (more : Nat) : text.drop (width + 2 + Lexeme.blockWidth comment + more) =
        (comment.drop (Lexeme.blockWidth comment)).drop more := by
      rw [← List.drop_drop, ← List.drop_drop, ← List.drop_drop, hdrop]
      rfl
    dsimp only at h ⊢
    rw [hbehind]
    cases hafter : (comment.drop (Lexeme.blockWidth comment)).drop ((comment.drop
        (Lexeme.blockWidth comment)).takeWhile Lexeme.isInlineBlank).length with
    | nil => simp [hafter] at h
    | cons c rest =>
        refine ⟨c, rest, rfl, ?_, hblank _ hafter⟩
        rintro rfl
        simp [hafter] at h
  next hnil hbreak _ _ _ =>
    cases hdrop : text.drop (text.takeWhile Lexeme.isInlineBlank).length with
    | nil => exact absurd hdrop hnil
    | cons c rest =>
        refine ⟨c, rest, rfl, ?_, hblank text hdrop⟩
        rintro rfl
        exact hbreak rest hdrop

section

variable (howed : s.owed = []) (hstart : s.atLineStart = false) (hrest : s.cursor.rest = [])
include howed hstart hrest

theorem step_of_end : s.step = s.close := by
  unfold step
  rw [howed, hstart, hrest]
  exact if_neg (by simp)

theorem tokens_of_close : s.tokens =
    (if s.lineHasToken then [s.mark .newline] else []) ++
      ((List.replicate s.levels.length .dedent).map s.mark ++ [s.mark .eof]) := by
  have hlevels {s : Scanner} (howed : s.owed = []) (hstart : s.atLineStart = false)
      (hrest : s.cursor.rest = []) (hline : s.lineHasToken = false) :
      s.tokens = (List.replicate s.levels.length .dedent).map s.mark ++ [s.mark .eof] := by
    generalize hopen : s.levels = levels
    induction levels generalizing s with
    | nil =>
        have hstep := step_of_end howed hstart hrest
        rw [close, hline, if_neg Bool.false_ne_true, hopen] at hstep
        exact tokens_of_finish hstep
    | cons level levels ih =>
        have hstep := step_of_end howed hstart hrest
        rw [close, hline, if_neg Bool.false_ne_true, hopen] at hstep
        have hnext := @ih { s with levels := levels, lineHasToken := false, afterValue := false }
          howed hstart hrest rfl rfl
        rw [tokens_of_emit hstep]
        exact congrArg (s.mark .dedent :: ·) hnext
  cases hline : s.lineHasToken with
  | false => exact hlevels howed hstart hrest hline
  | true =>
      have hstep := step_of_end howed hstart hrest
      rw [close, hline, if_pos rfl] at hstep
      rw [tokens_of_emit hstep]
      exact congrArg (s.mark .newline :: ·) (@hlevels
        { s with lineHasToken := false, afterValue := false } howed hstart hrest rfl)

end

/-! ## Where the layout further on is -/

theorem ink_drop_le (text : List Char) (width : Nat) : ink (text.drop width) ≤ ink text :=
  (List.drop_sublist width text).countP_le

/-- Every token stands in front of what is still to be read. -/
theorem ink_le_of_mem {text : List Char} {token : Token} (h : s.cursor.In text)
    (hmem : token ∈ s.tokens) :
    ink ((Text.after? token.span.start text).getD []) ≤ ink s.cursor.rest := by
  induction s using Scanner.tokens.induct with
  | case1 s first next hstep ih =>
      obtain ⟨width, hcursor⟩ := cursor_of_emit hstep
      rw [tokens_of_emit hstep] at hmem
      obtain rfl | hmem := List.mem_cons.mp hmem
      · have hstart : token.span.start = s.cursor.offset := by
          have hmoves := hstep ▸ moves_step s
          cases hmoves <;> rfl
        rw [hstart, h.ink_eq]
      · refine Nat.le_trans (ih (hcursor ▸ h.skip width) hmem) ?_
        rw [hcursor, Cursor.rest_skip]
        exact ink_drop_le _ _
  | case2 s next hstep ih =>
      obtain ⟨width, hcursor⟩ := cursor_of_skip hstep
      rw [tokens_of_skip hstep] at hmem
      refine Nat.le_trans (ih (hcursor ▸ h.skip width) hmem) ?_
      rw [hcursor, Cursor.rest_skip]
      exact ink_drop_le _ _
  | case3 s final hstep =>
      rw [tokens_of_finish hstep, List.mem_singleton] at hmem
      have hmoves := hstep ▸ moves_step s
      cases hmoves
      rw [hmem, show (s.mark .eof).span.start = s.cursor.offset from rfl, h.ink_eq]

/-- At a character of a line that is no blank, the layout further on stands behind it. -/
theorem ink_lt_of_mem {text rest : List Char} {token : Token} {c : Char} (h : s.cursor.In text)
    (howed : s.owed = []) (hstart : s.atLineStart = false) (hrest : s.cursor.rest = c :: rest)
    (hbreak : c ≠ '\n') (hblank : isMargin c = false) (hmem : token ∈ s.tokens)
    (hlayout : token.kind.isLayout = true) :
    ink ((Text.after? token.span.start text).getD []) < ink s.cursor.rest := by
  have hbehind {next : Scanner} {width : Nat} (hwidth : 0 < width)
      (hcursor : next.cursor = s.cursor.skip width) (hmem : token ∈ next.tokens) :
      ink ((Text.after? token.span.start text).getD []) < ink s.cursor.rest := by
    obtain ⟨more, rfl⟩ := Nat.exists_eq_succ_of_ne_zero (Nat.ne_of_gt hwidth)
    refine Nat.lt_of_le_of_lt (ink_le_of_mem (hcursor ▸ h.skip _) hmem) ?_
    rw [hcursor, Cursor.rest_skip, hrest, List.drop_succ_cons]
    refine Nat.lt_of_le_of_lt (ink_drop_le _ _) ?_
    rw [ink, ink, List.countP_cons_of_pos (by simp [hblank])]
    exact Nat.lt_succ_self _
  have hsplit {front : Char} {tail : List Char} (hother : s.cursor.rest = front :: tail) :
      front = c := (List.cons.inj (hother.symm.trans hrest)).1
  cases hstep : s.step with
  | finish final =>
      have hmoves := hstep ▸ moves_step s
      cases hmoves with
      | finish _ hother => exact absurd (hother.symm.trans hrest) (List.cons_ne_nil _ _).symm
  | skip next =>
      rw [tokens_of_skip hstep] at hmem
      have hmoves := hstep ▸ moves_step s
      cases hmoves with
      | startLine _ hother =>
          rw [hstart] at hother
          contradiction
      | trivia _ _ hwidth => exact hbehind hwidth rfl hmem
      | joinLines _ hother | leaveLine _ hother => exact absurd (hsplit hother).symm hbreak
      | ignore => exact hbehind Nat.one_pos rfl hmem
  | emit first next =>
      rw [tokens_of_emit hstep] at hmem
      have hmoves := hstep ▸ moves_step s
      cases hmoves with
      | owed hother =>
          rw [howed] at hother
          contradiction
      | endLine _ hother | endLevel _ hother =>
          exact absurd (hother.symm.trans hrest) (List.cons_ne_nil _ _).symm
      | breakLine _ hother => exact absurd (hsplit hother).symm hbreak
      | lexeme _ _ _ hscan =>
          obtain rfl | hmem := List.mem_cons.mp hmem
          · have hplain := (Lexeme.solid_of_scan hscan).1
            exact absurd (hplain.symm.trans hlayout) Bool.false_ne_true
          · exact hbehind (Lexeme.width_pos_of_scan hscan) rfl hmem

end Scanner

end SceneLang
