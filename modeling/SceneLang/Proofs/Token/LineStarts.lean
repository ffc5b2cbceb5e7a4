import SceneLang.Proofs.Chunk.Partition
import SceneLang.Proofs.Token.Excerpts

/-!
# Where lines start

In front of the first token of a line the scanner comes by the start of that line, and what it has
not read yet is then read as from the start of a text.  There is one way past the start of a line:
over the line break in a block comment.
-/

namespace SceneLang

open Text (EndsLine byteLength)

/-! ## Line breaks in comments -/

namespace Lexeme

/-- These characters, which stand in front of others, hold line breaks within a comment only. -/
def Unbroken (inside back : List Char) : Prop :=
  ∃ blanks comment more, inside = blanks ++ comment ++ more ∧ '\n' ∉ blanks ∧ '\n' ∉ more ∧
    (comment = [] ∨ IsComment comment (more ++ back))

theorem unbroken_of_not_mem {inside : List Char} (h : '\n' ∉ inside) (back : List Char) :
    Unbroken inside back :=
  ⟨inside, [], [], by simp, h, List.not_mem_nil, .inl rfl⟩

theorem unbroken_of_isComment {inside back : List Char} (h : IsComment inside back) :
    Unbroken inside back :=
  ⟨[], inside, [], by simp, List.not_mem_nil, List.not_mem_nil, .inr h⟩

theorem ne_break_of_isInlineBlank {c : Char} (h : isInlineBlank c = true) : c ≠ '\n' := by
  rintro rfl
  contradiction

theorem break_not_mem_blanks (text : List Char) : '\n' ∉ text.takeWhile isInlineBlank :=
  fun hmem => ne_break_of_isInlineBlank (List.mem_takeWhile_imp hmem) rfl

/-- A comment that something follows does not end with a line break. -/
theorem IsComment.stop_ne_nil {start stop back : List Char}
    (h : IsComment (start ++ '\n' :: stop) back) (hback : back ≠ []) : stop ≠ [] := by
  rintro rfl
  generalize hcomment : start ++ ['\n'] = comment at h
  have hlast : comment.getLast? = some '\n' := hcomment ▸ List.getLast?_concat
  cases h with
  | line hmark hbody =>
      obtain hmem | hmem := List.mem_append.mp (List.mem_of_getLast? hlast)
      · obtain rfl | rfl := hmark <;> simp at hmem
      · exact hbody hmem
  | block =>
      rw [List.getLast?_append_of_ne_nil _ (by simp)] at hlast
      contradiction
  | openBlock => contradiction

theorem Unbroken.exists_comment {start stop back : List Char}
    (h : Unbroken (start ++ '\n' :: stop) back) (hback : back ≠ []) :
    ∃ blanks before after more, start = blanks ++ before ∧ stop = after ++ more ∧
      IsComment (before ++ '\n' :: after) (more ++ back) ∧ after ≠ [] := by
  obtain ⟨blanks, comment, more, hinside, hblanks, hmore, hcomment⟩ := h
  obtain ⟨after, hfront, rfl⟩ | ⟨others, -, rfl⟩ := Tiles.piece_or_rest hinside.symm
  · obtain ⟨others, rfl, -⟩ | ⟨before, rfl, rfl⟩ := Tiles.piece_or_rest hfront
    · simp at hblanks
    · have hcomment := hcomment.resolve_left (by simp)
      have hmore : more ++ back ≠ [] := by simp [hback]
      exact ⟨blanks, before, after, more, rfl, rfl, hcomment, hcomment.stop_ne_nil hmore⟩
  · simp at hmore

/-- What stands behind blanks. -/
theorem Unbroken.behind {blanks text : List Char} {width : Nat}
    (h : Unbroken (text.take width) (text.drop width)) (hblanks : '\n' ∉ blanks) :
    Unbroken ((blanks ++ text).take (blanks.length + width))
      ((blanks ++ text).drop (blanks.length + width)) := by
  obtain ⟨others, comment, more, hinside, hothers, hmore⟩ := h
  rw [List.take_length_add_append, List.drop_length_add_append]
  refine ⟨blanks ++ others, comment, more, ?_, ?_, hmore⟩
  · rw [hinside, List.append_assoc, List.append_assoc, List.append_assoc]
  · rw [List.mem_append, not_or]
    exact ⟨hblanks, hothers⟩

theorem unbroken_trivia (c : Char) (rest : List Char) (lineHasToken : Bool) (hbreak : c ≠ '\n') :
    Unbroken ((c :: rest).take (triviaWidth lineHasToken (c :: rest)))
      ((c :: rest).drop (triviaWidth lineHasToken (c :: rest))) := by
  have hfiller := filler_trivia lineHasToken (c :: rest)
  generalize hinside : (c :: rest).take (triviaWidth lineHasToken (c :: rest)) = inside at hfiller ⊢
  cases hfiller with
  | blanks hblank =>
      exact unbroken_of_not_mem (fun hmem => ne_break_of_isInlineBlank (hblank _ hmem) rfl) _
  | comment hcomment => exact unbroken_of_isComment hcomment
  | lineBreak =>
      obtain ⟨rfl, -⟩ := List.cons_prefix_cons.mp (hinside ▸ List.take_prefix _ _)
      contradiction
  | ignored hscan =>
      obtain ⟨rfl, -⟩ := List.cons_prefix_cons.mp (hinside ▸ List.take_prefix _ _)
      exact unbroken_of_not_mem (by simpa using Ne.symm hbreak) _

end Lexeme

open Lexeme (Unbroken IsComment unbroken_of_not_mem)

namespace Scanner

variable {s next last : Scanner} {token : Token} {tokens gap emitted : List Token}
variable {front rest : List Char}

theorem unbroken_lineHead (text : List Char) :
    Unbroken (text.take (lineHead text).1) (text.drop (lineHead text).1) := by
  have hblanks := Lexeme.break_not_mem_blanks text
  have hsplit : text = text.takeWhile Lexeme.isInlineBlank ++
      text.drop (text.takeWhile Lexeme.isInlineBlank).length := by
    rw [Lexeme.drop_length_takeWhile, List.takeWhile_append_dropWhile]
  unfold lineHead
  dsimp only
  generalize text.takeWhile Lexeme.isInlineBlank = blanks at *
  generalize text.drop blanks.length = tail at *
  subst hsplit
  have hnone : Unbroken ((blanks ++ tail).take (blanks.length + 0))
      ((blanks ++ tail).drop (blanks.length + 0)) :=
    Unbroken.behind (unbroken_of_not_mem List.not_mem_nil _) hblanks
  split
  next => exact hnone
  next => exact hnone
  next rest =>
      rw [Nat.add_assoc, Nat.add_comm 1]
      exact (Lexeme.unbroken_trivia '#' rest false (by decide)).behind hblanks
  next rest =>
      rw [Nat.add_assoc, Nat.add_comm 2]
      exact (Lexeme.unbroken_trivia '/' ('/' :: rest) false (by decide)).behind hblanks
  next rest =>
      rw [Nat.add_assoc, Nat.add_assoc]
      refine Unbroken.behind ?_ hblanks
      have hcomment := Lexeme.isComment_block rest
      have hmore := Lexeme.break_not_mem_blanks (rest.drop (Lexeme.blockWidth rest))
      rw [← Lexeme.take_length_takeWhile] at hmore
      generalize Lexeme.blockWidth rest = width at *
      generalize ((rest.drop width).takeWhile Lexeme.isInlineBlank).length = more at *
      rw [← List.take_append_drop more (rest.drop width)] at hcomment
      rw [Nat.add_comm 2]
      change Unbroken (['/', '*'] ++ rest.take (width + more)) (rest.drop (width + more))
      rw [List.take_add, ← List.drop_drop]
      exact ⟨[], _, _, (List.append_assoc ..).symm, List.not_mem_nil, hmore, .inr hcomment⟩
  next => exact hnone

/-! ## What lies behind a run -/

theorem Emits.stop_le {text : List Char} (h : Emits (ofText text) emitted s)
    (hcursor : s.cursor = .behind front rest) :
    ∀ token ∈ emitted, token.span.stop ≤ byteLength front := by
  have hgrows (width : Nat) (front rest : List Char) :
      byteLength front ≤ byteLength (front ++ rest.take width) := by
    rw [Text.byteLength_append]
    exact Nat.le_add_right _ _
  have hbehind := Emits.invariant (fun emitted s => ∃ front rest, s.cursor = .behind front rest ∧
    ∀ token ∈ emitted, token.span.stop ≤ byteLength front) ?_ ?_ h
    ⟨[], text, rfl, List.forall_mem_nil _⟩
  · obtain ⟨front', rest', hsame, hstop⟩ := hbehind
    have hoffset := congrArg Cursor.offset (hcursor.symm.trans hsame)
    exact fun token hmem => (hstop token hmem).trans (Nat.le_of_eq hoffset.symm)
  · rintro emitted s next ⟨front, rest, hcursor, hstop⟩ hstep
    obtain ⟨width, hnext⟩ := cursor_of_skip hstep
    refine ⟨_, _, by rw [hnext, hcursor, Cursor.skip_behind], fun token hmem => ?_⟩
    exact (hstop token hmem).trans (hgrows _ _ _)
  · rintro emitted s token next ⟨front, rest, hcursor, hstop⟩ hstep
    obtain ⟨width, hnext, hcovers⟩ := covers_of_emit hstep hcursor
    refine ⟨_, _, by rw [hnext, hcursor, Cursor.skip_behind], fun other hmem => ?_⟩
    obtain hmem | hmem := List.mem_append.mp hmem
    · exact (hstop other hmem).trans (hgrows _ _ _)
    · rw [List.mem_singleton.mp hmem, hcovers.span]

/-! ## Lines that have not begun -/

/-- No token of the line has been found, and no bracket is open. -/
structure Idle (s : Scanner) : Prop where
  lineHasToken : s.lineHasToken = false
  groups : s.groups = 0
  afterValue : s.afterValue = false

/-- The scanner is as at the start of a text, but for the levels that are open. -/
structure Opening (s : Scanner) : Prop extends Idle s where
  owed : s.owed = []
  atLineStart : s.atLineStart = true

/-- What is stepped over holds no line break outside of comments, unless it is one. -/
theorem Idle.skip (h : Idle s) (hstep : s.step = .skip next)
    (hcursor : s.cursor = .behind front rest) :
    ∃ inside after, rest = inside ++ after ∧ next.cursor = .behind (front ++ inside) after ∧
      Idle next ∧ (inside = ['\n'] ∧ Opening next ∨ Unbroken inside after) := by
  have howed := owed_of_skip hstep
  have hrest : s.cursor.rest = rest := by rw [hcursor]; rfl
  have hskipped (width : Nat) (hnext : next = { s with cursor := s.cursor.skip width })
      (hbroken : Unbroken (rest.take width) (rest.drop width)) :
      ∃ inside after, rest = inside ++ after ∧ next.cursor = .behind (front ++ inside) after ∧
        Idle next ∧ (inside = ['\n'] ∧ Opening next ∨ Unbroken inside after) := by
    subst hnext
    exact ⟨_, _, (List.take_append_drop width rest).symm, by rw [hcursor, Cursor.skip_behind],
      ⟨h.lineHasToken, h.groups, h.afterValue⟩, .inr hbroken⟩
  cases hstart : s.atLineStart with
  | true =>
      rw [step_of_lineStart howed hstart h.groups, Step.skip.injEq] at hstep
      obtain ⟨hline, hgroups, hvalue, -⟩ := startLine_keeps s
      subst hstep
      refine ⟨_, _, (List.take_append_drop (lineHead rest).1 rest).symm, ?_,
        ⟨hline.trans h.lineHasToken, hgroups.trans h.groups, hvalue.trans h.afterValue⟩,
        .inr (unbroken_lineHead rest)⟩
      rw [cursor_startLine, hrest, hcursor, Cursor.skip_behind]
  | false =>
  cases rest with
  | nil =>
      have hmoves := hstep ▸ moves_step s
      cases hmoves with
      | startLine _ hagain => simp [hstart] at hagain
      | trivia _ hsome | joinLines _ hsome | leaveLine _ hsome | ignore _ hsome =>
          rw [hrest] at hsome
          contradiction
  | cons c rest =>
  obtain hzero | hpos := Nat.eq_zero_or_pos (Lexeme.triviaWidth s.lineHasToken (c :: rest))
  · by_cases hbreak : c = '\n'
    · subst hbreak
      rw [step_of_break howed hstart hrest, breakLine, h.groups, if_neg (Nat.lt_irrefl 0),
        h.lineHasToken, if_neg Bool.false_ne_true, Step.skip.injEq] at hstep
      subst hstep
      exact ⟨['\n'], rest, rfl, by rw [hcursor, Cursor.next_behind],
        ⟨rfl, rfl, h.afterValue⟩, .inl ⟨rfl, ⟨rfl, rfl, h.afterValue⟩, howed, rfl⟩⟩
    · cases hscan : Lexeme.scan s.afterValue c rest with
      | none =>
          rw [step_of_ignored howed hstart hrest hzero hbreak hscan, Step.skip.injEq] at hstep
          exact hskipped 1 hstep.symm (unbroken_of_not_mem (by simpa using Ne.symm hbreak) _)
      | some lexeme =>
          rw [step_of_lexeme howed hstart hrest hzero hbreak hscan] at hstep
          contradiction
  · rw [step_of_trivia howed hstart hrest hpos, Step.skip.injEq] at hstep
    refine hskipped _ hstep.symm (Lexeme.unbroken_trivia c rest _ ?_)
    rintro rfl
    exact absurd hpos (Nat.lt_irrefl 0)

theorem Idle.emit (h : Idle s) (hstep : s.step = .emit token next)
    (hlayout : token.kind.isLayout = true) : next.cursor = s.cursor ∧ Idle next := by
  have hmoves := hstep ▸ moves_step s
  have hline := h.lineHasToken
  cases hmoves with
  | owed | endLevel => exact ⟨rfl, h.lineHasToken, h.groups, rfl⟩
  | endLine _ _ htoken | breakLine _ _ _ htoken =>
      rw [hline] at htoken
      contradiction
  | lexeme _ _ _ hscan => exact absurd hlayout (Bool.eq_false_iff.mp (Lexeme.solid_of_scan hscan).1)

end Scanner

/-! ## The way to the start of a line -/

/-- The place lies within a comment of the text that no token touches. -/
def InComment (text : List Char) (offset : Nat) : Prop :=
  ∃ front comment back, text = front ++ comment ++ back ∧ IsComment comment back ∧
    byteLength front < offset ∧ offset < byteLength (front ++ comment) ∧
    ∀ token ∈ tokenize text,
      token.span.stop ≤ byteLength front ∨ byteLength (front ++ comment) ≤ token.span.start

namespace Scanner

variable {s next last : Scanner} {gap emitted : List Token} {text lines line back : List Char}

/-- A line break that a step goes over, with something behind it, is in a comment. -/
theorem Emits.inComment {front start stop rest : List Char} (h : Emits (ofText text) emitted s)
    (hstep : s.step = .skip next) (htext : text = front ++ (start ++ '\n' :: stop ++ rest))
    (hcursor : s.cursor = .behind front (start ++ '\n' :: stop ++ rest))
    (hnext : next.cursor = .behind (front ++ (start ++ '\n' :: stop)) rest)
    (hunbroken : Unbroken (start ++ '\n' :: stop) rest) (hrest : rest ≠ []) :
    stop ≠ [] ∧ InComment text (byteLength (front ++ start ++ ['\n'])) := by
  obtain ⟨blanks, before, after, more, rfl, rfl, hcomment, hafter⟩ :=
    hunbroken.exists_comment hrest
  have hbreak := Char.utf8Size_pos '\n'
  refine ⟨by simp [hafter], front ++ blanks, before ++ '\n' :: after, more ++ rest, ?_, hcomment,
    ?_, ?_, fun token hmem => ?_⟩
  · rw [htext]
    simp only [List.append_assoc, List.cons_append]
  · simp only [Text.byteLength_append, Text.byteLength_cons]
    omega
  · obtain ⟨c, after, rfl⟩ := List.exists_cons_of_ne_nil hafter
    have hsize := Char.utf8Size_pos c
    simp only [Text.byteLength_append, Text.byteLength_cons, Text.byteLength_nil]
    omega
  · have htokens : tokenize text = emitted ++ next.tokens := by
      rw [tokenize, h.tokens_eq, tokens_of_skip hstep]
    rw [htokens] at hmem
    obtain hmem | hmem := List.mem_append.mp hmem
    · have hstop := h.stop_le hcursor token hmem
      rw [Text.byteLength_append]
      exact .inl (hstop.trans (Nat.le_add_right _ _))
    · have hstart := (tiles_tokens hnext).start_le hmem
      simp only [Text.byteLength_append, Text.byteLength_cons] at hstart ⊢
      exact .inr (by omega)

/-- Where a stretch of a text goes up to a line or over its start, it holds the line break there. -/
theorem exists_break_of_lines {front inside after : List Char} (hlines : EndsLine lines)
    (hsplit : front ++ (inside ++ after) = lines ++ line) (hlt : front.length < lines.length)
    (hle : lines.length ≤ (front ++ inside).length) :
    ∃ start stop, lines = front ++ start ++ ['\n'] ∧ inside = start ++ '\n' :: stop ∧
      line = stop ++ after := by
  obtain ⟨others, rfl⟩ : front <+: lines :=
    List.prefix_of_prefix_length_le (List.prefix_append _ _) ⟨line, hsplit.symm⟩ (Nat.le_of_lt hlt)
  obtain ⟨stop, hstop⟩ : front ++ others <+: front ++ inside :=
    List.prefix_of_prefix_length_le ⟨line, hsplit.symm⟩ ⟨after, List.append_assoc ..⟩ hle
  rw [List.append_assoc, List.append_cancel_left_eq] at hstop
  subst hstop
  rw [List.append_assoc, List.append_assoc, List.append_cancel_left_eq,
    List.append_cancel_left_eq] at hsplit
  have hothers : others ≠ [] := by
    rintro rfl
    simp at hlt
  have hlast := hlines.resolve_left (by simp [hothers])
  rw [List.getLast?_append_of_ne_nil _ hothers] at hlast
  obtain ⟨start, rfl⟩ := List.getLast?_eq_some_iff.mp hlast
  exact ⟨start, stop, (List.append_assoc ..).symm, List.append_assoc .., hsplit.symm⟩

/-- The scanner comes by the start of the line that it stops in, unless that is in a comment. -/
theorem Emits.exists_opening (hrun : Emits s gap last) {front rest : List Char}
    (htext : text = lines ++ (line ++ back)) (hlines : EndsLine lines) (hback : back ≠ [])
    (hlast : last.cursor = .behind (lines ++ line) back)
    (hgap : ∀ token ∈ gap, token.kind.isLayout = true) (hpassed : Emits (ofText text) emitted s)
    (hidle : Idle s) (hsplit : text = front ++ rest) (hcursor : s.cursor = .behind front rest)
    (hfront : front.length < lines.length) :
    (∃ passed opening gap', Emits (ofText text) passed opening ∧ Emits opening gap' last ∧
      (∀ token ∈ gap', token.kind.isLayout = true) ∧ Opening opening ∧
      opening.cursor = .behind lines (line ++ back)) ∨ InComment text (byteLength lines) := by
  -- The start of the line is ahead, until a step comes to it or goes over it.
  induction hrun generalizing emitted front rest with
  | refl s =>
      obtain rfl : rest = back := congrArg Cursor.rest (hcursor.symm.trans hlast)
      rw [hsplit, ← List.append_assoc, List.append_cancel_right_eq] at htext
      rw [htext, List.length_append] at hfront
      omega
  | @skip s next last gap hstep hrun ih =>
      obtain ⟨inside, after, rfl, hnext, hidle', hbroken⟩ := hidle.skip hstep hcursor
      have hpassed' := hpassed.append (.skip hstep (.refl next))
      rw [List.append_nil] at hpassed'
      by_cases hahead : (front ++ inside).length < lines.length
      · exact ih hlast hgap hpassed' hidle' (by rw [hsplit, List.append_assoc]) hnext hahead
      have hafter : after ≠ [] := by
        rintro rfl
        have hlength := hrun.length_le
        rw [hlast, hnext] at hlength
        exact hback (List.eq_nil_of_length_eq_zero (Nat.eq_zero_of_le_zero hlength))
      obtain ⟨start, stop, rfl, rfl, hline⟩ :=
        exists_break_of_lines hlines (hsplit.symm.trans htext) hfront (Nat.le_of_not_lt hahead)
      obtain ⟨hinside, hopening⟩ | hunbroken := hbroken
      · obtain ⟨rfl, rfl⟩ : start = [] ∧ stop = [] := by
          simpa using List.append_eq_singleton_iff.mp hinside
        refine .inl ⟨_, next, gap, hpassed', hrun, hgap, hopening, ?_⟩
        simp only [hnext, hline, List.append_nil, List.nil_append]
      · exact .inr (hpassed.inComment hstep hsplit hcursor hnext hunbroken hafter).2
  | @emit s next last token gap hstep hrun ih =>
      obtain ⟨htoken, hgap⟩ := List.forall_mem_cons.mp hgap
      obtain ⟨hnext, hidle'⟩ := hidle.emit hstep htoken
      have hpassed' := hpassed.append (.emit hstep (.refl next))
      exact ih hlast hgap hpassed' hidle' hsplit (hnext.trans hcursor) hfront

end Scanner
end SceneLang
