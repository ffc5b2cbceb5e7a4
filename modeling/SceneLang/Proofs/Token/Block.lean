import SceneLang.Diagnostic.Vocabulary
import SceneLang.Proofs.Shelter.Groups
import SceneLang.Proofs.Shift.Trees
import SceneLang.Proofs.Token.Layout
import SceneLang.Proofs.Token.Stops

/-!
# The tokens of an element in braces

Where an element in braces stands on lines of its own, in front of another text, its keyword and
its braces are tokens, the groups within the braces are those of the text that stands there, and
behind it the other text is cut into the tokens that it has alone.
-/

namespace SceneLang

open Movable (move)

variable {s next last : Scanner} {tokens : List Token} {rest : List Char} {levels : List Nat}

namespace Scanner

/-! ## Known steps -/

theorem step_of_owed {kind : TokenKind} {owed : List TokenKind} (howed : s.owed = kind :: owed) :
    s.step = .emit (s.mark kind) { s with owed := owed, afterValue := false } := by
  unfold step
  rw [howed]

theorem step_of_lineStart (howed : s.owed = []) (hstart : s.atLineStart = true)
    (hgroups : s.groups = 0) : s.step = .skip s.startLine := by
  unfold step
  rw [howed]
  exact if_pos ⟨hstart, hgroups⟩

section

variable (howed : s.owed = []) (hstart : s.atLineStart = false)
include howed hstart

theorem step_of_trivia {c : Char} (hrest : s.cursor.rest = c :: rest)
    (hwidth : 0 < Lexeme.triviaWidth s.lineHasToken (c :: rest)) :
    s.step = .skip
      { s with cursor := s.cursor.skip (Lexeme.triviaWidth s.lineHasToken (c :: rest)) } := by
  unfold step
  rw [howed, hstart, hrest]
  dsimp only
  rw [if_neg (by simp), if_pos hwidth]

theorem step_of_break (hrest : s.cursor.rest = '\n' :: rest) : s.step = s.breakLine := by
  have htrivia : Lexeme.triviaWidth s.lineHasToken ('\n' :: rest) = 0 := rfl
  unfold step
  rw [howed, hstart, hrest]
  dsimp only
  rw [if_neg (by simp), htrivia, if_neg (Nat.lt_irrefl 0), if_pos rfl]

theorem step_of_lexeme {c : Char} {lexeme : Lexeme} (hrest : s.cursor.rest = c :: rest)
    (htrivia : Lexeme.triviaWidth s.lineHasToken (c :: rest) = 0) (hbreak : c ≠ '\n')
    (hscan : Lexeme.scan s.afterValue c rest = some lexeme) : s.step = s.emitLexeme lexeme := by
  unfold step
  rw [howed, hstart, hrest]
  dsimp only
  rw [if_neg (by simp), htrivia, if_neg (Nat.lt_irrefl 0), if_neg hbreak, hscan]

end

/-! ## Between lines -/

/-- No layout is owed, and no bracket is open. -/
structure Free (levels : List Nat) (rest : List Char) (s : Scanner) : Prop where
  owed : s.owed = []
  groups : s.groups = 0
  levels : s.levels = levels
  rest : s.cursor.rest = rest

/-- The scanner is as at the start of a text. -/
structure Fresh (rest : List Char) (s : Scanner) : Prop extends Free [] rest s where
  atLineStart : s.atLineStart = true
  lineHasToken : s.lineHasToken = false
  afterValue : s.afterValue = false

theorem fresh_ofText (text : List Char) : Fresh text (ofText text) :=
  ⟨⟨rfl, rfl, rfl, rfl⟩, rfl, rfl, rfl⟩

/-- Behind a line break a fresh scanner is one at the start of the rest, further down. -/
theorem Fresh.eq_move {front : List Char} (h : Fresh rest s)
    (hcursor : s.cursor = .behind (front ++ ['\n']) rest) (ids : Nat) :
    s = move ⟨(front ++ ['\n']).count '\n', Text.byteLength (front ++ ['\n']), ids⟩
      (ofText rest) := by
  obtain ⟨cursor, levels, owed, atLineStart, lineHasToken, groups, afterValue⟩ := s
  obtain ⟨⟨howed, hgroups, hlevels, _⟩, hstart, hline, hvalue⟩ := h
  dsimp only at howed hgroups hlevels hstart hline hvalue hcursor
  subst howed hgroups hlevels hstart hline hvalue
  rw [hcursor, Cursor.behind_of_break front rest ids]
  rfl

/-- A run that leads to a fresh scanner behind a line break. -/
theorem Emits.eq_move {front : List Char} (h : Emits (ofText (front ++ '\n' :: rest)) tokens last)
    (hfresh : Fresh rest last) (ids : Nat) :
    last = move ⟨(front ++ ['\n']).count '\n', Text.byteLength (front ++ ['\n']), ids⟩
      (ofText rest) := by
  refine hfresh.eq_move ?_ ids
  obtain ⟨before, behind, htext, hcursor⟩ := h.in
  have hrest := hfresh.rest
  rw [hcursor, Cursor.rest_behind] at hrest
  rw [hrest, List.append_cons] at htext
  rw [hcursor, hrest, ← List.append_cancel_right htext]

/-- The scanner behind the layout that it owes. -/
def settled (s : Scanner) : Scanner :=
  { s with owed := [], afterValue := s.afterValue && s.owed.isEmpty }

/-- What is owed is emitted, and nothing else happens. -/
theorem emits_settled (s : Scanner) : Emits s (s.owed.map s.mark) s.settled := by
  obtain ⟨cursor, levels, owed, atLineStart, lineHasToken, groups, afterValue⟩ := s
  induction owed generalizing afterValue with
  | nil =>
      rw [settled, List.isEmpty_nil, Bool.and_true]
      exact .refl _
  | cons kind owed ih =>
      refine .emit (step_of_owed rfl) ?_
      have hrest := ih false
      rw [settled, Bool.false_and] at hrest
      rw [settled, List.isEmpty_cons, Bool.and_false]
      exact hrest

theorem kinds_owed (s : Scanner) : (s.owed.map s.mark).map Token.kind = s.owed := by
  rw [List.map_map]
  exact List.map_id _

theorem emits_owed (hgroups : s.groups = 0) :
    ∃ tokens next, Emits s tokens next ∧ tokens.map Token.kind = s.owed ∧
      Free s.levels s.cursor.rest next ∧ next.atLineStart = s.atLineStart :=
  ⟨_, s.settled, emits_settled s, kinds_owed s, ⟨rfl, hgroups, rfl, rfl⟩, rfl⟩

/-- The end of a line that holds a token is a token itself. -/
theorem step_of_lineEnd (h : Free levels ('\n' :: rest) s) (hstart : s.atLineStart = false)
    (hline : s.lineHasToken = true) :
    ∃ token next, s.step = .emit token next ∧ token.kind = .newline ∧ Free levels rest next ∧
      next.atLineStart = true ∧ next.lineHasToken = false ∧ next.afterValue = false := by
  have hstep := step_of_break h.owed hstart h.rest
  have hrest : s.cursor.next.rest = rest := by rw [Cursor.rest_next, h.rest, List.tail_cons]
  rw [breakLine, h.groups, if_neg (Nat.lt_irrefl 0), if_pos hline] at hstep
  exact ⟨_, _, hstep, rfl, ⟨h.owed, rfl, h.levels, hrest⟩, rfl, rfl, rfl⟩

theorem emits_break_within (h : Free levels ('\n' :: rest) s) (hstart : s.atLineStart = false) :
    ∃ tokens next, Emits s tokens next ∧ (∀ token ∈ tokens, token.kind = .newline) ∧
      Free levels rest next ∧ next.atLineStart = true := by
  cases hline : s.lineHasToken with
  | true =>
      obtain ⟨token, next, hstep, hkind, hfree, hnext, _⟩ := step_of_lineEnd h hstart hline
      exact ⟨[token], next, .emit hstep (.refl _), by simpa using hkind, hfree, hnext⟩
  | false =>
      have hstep := step_of_break h.owed hstart h.rest
      have hrest : s.cursor.next.rest = rest := by rw [Cursor.rest_next, h.rest, List.tail_cons]
      rw [breakLine, h.groups, if_neg (Nat.lt_irrefl 0), hline, if_neg Bool.false_ne_true] at hstep
      exact ⟨[], _, .skip hstep (.refl _), by simp, ⟨h.owed, rfl, h.levels, hrest⟩, rfl⟩

theorem startLine_of_break (h : Free levels ('\n' :: rest) s) :
    s.startLine = { s with atLineStart := false } := by
  unfold startLine
  rw [h.rest]
  rfl

/-- A line break outside of brackets ends the line. -/
theorem emits_break (h : Free levels ('\n' :: rest) s) :
    ∃ tokens next, Emits s tokens next ∧ (∀ token ∈ tokens, token.kind = .newline) ∧
      Free levels rest next ∧ next.atLineStart = true := by
  cases hstart : s.atLineStart with
  | false => exact emits_break_within h hstart
  | true =>
      have hstep := step_of_lineStart h.owed hstart h.groups
      rw [startLine_of_break h] at hstep
      have hfree : Free levels ('\n' :: rest) { s with atLineStart := false } :=
        ⟨h.owed, h.groups, h.levels, h.rest⟩
      obtain ⟨tokens, next, hrun, hnext⟩ := emits_break_within hfree rfl
      exact ⟨tokens, next, .skip hstep hrun, hnext⟩

/-! ## The lines of the braces -/

/-- A brace at the end of a line. -/
theorem emits_brace {c : Char} {kind : TokenKind} (h : Free [] (c :: '\n' :: rest) s)
    (hstart : s.atLineStart = false) (hbreak : c ≠ '\n') (hgroups : groupsAfter kind 0 = 0)
    (htrivia : Lexeme.triviaWidth s.lineHasToken (c :: '\n' :: rest) = 0)
    (hscan : Lexeme.scan s.afterValue c ('\n' :: rest) = some (Lexeme.plain kind 1)) :
    ∃ brace line next, Emits s [brace, line] next ∧ brace.kind = kind ∧ line.kind = .newline ∧
      Fresh rest next := by
  have hstep := step_of_lexeme h.owed hstart h.rest htrivia hbreak hscan
  rw [emitLexeme, h.groups] at hstep
  have hskip : (s.cursor.skip 1).rest = '\n' :: rest := by
    rw [Cursor.rest_skip, h.rest, List.drop_one, List.tail_cons]
  obtain ⟨line, next, hend, hkind, hfree, hnext⟩ :=
    step_of_lineEnd (s := { s with
      cursor := s.cursor.skip 1
      groups := groupsAfter kind 0
      lineHasToken := true
      afterValue := kind.endsValue }) ⟨h.owed, hgroups, h.levels, hskip⟩ hstart rfl
  exact ⟨_, line, next, .emit hstep (.emit hend (.refl next)), rfl, hkind, hfree, hnext.1,
    hnext.2.1, hnext.2.2⟩

theorem relevel_zero (hpos : ∀ level ∈ levels, 0 < level) :
    relevel 0 levels = ([], List.replicate levels.length .dedent) := by
  have hdrop : levels.dropWhile (0 < ·) = [] := by
    rw [List.dropWhile_eq_nil_iff]
    exact fun level hmem => decide_eq_true (hpos level hmem)
  have htake : levels.takeWhile (0 < ·) = levels := by
    rw [List.takeWhile_eq_self_iff]
    exact fun level hmem => decide_eq_true (hpos level hmem)
  unfold relevel
  rw [hdrop, htake]
  rfl

theorem emits_leftBrace (h : Free [] ('\x7b' :: '\n' :: rest) s) (hstart : s.atLineStart = false) :
    ∃ brace line next, Emits s [brace, line] next ∧ brace.kind = .leftBrace ∧
      line.kind = .newline ∧ Fresh rest next :=
  emits_brace h hstart (by decide) rfl rfl rfl

/-- A line of nothing but a closing brace also closes all levels. -/
theorem emits_rightBrace (h : Free levels ('\x7d' :: '\n' :: rest) s) (hstart : s.atLineStart = true)
    (hpos : ∀ level ∈ levels, 0 < level) :
    ∃ dedents brace line next, Emits s (dedents ++ [brace, line]) next ∧
      (∀ token ∈ dedents, token.kind = .dedent) ∧ brace.kind = .rightBrace ∧
      line.kind = .newline ∧ Fresh rest next := by
  have hstep := step_of_lineStart h.owed hstart h.groups
  have hline : s.startLine = { s with
      levels := []
      owed := List.replicate levels.length .dedent
      atLineStart := false } := by
    have hlevels : relevel (indentation ('\x7d' :: '\n' :: rest)) s.levels =
        ([], List.replicate levels.length .dedent) := by
      rw [h.levels]
      exact relevel_zero hpos
    unfold startLine
    rw [h.rest, hlevels]
    rfl
  rw [hline] at hstep
  obtain ⟨dedents, middle, hdedents, hkinds, hfree, hmiddle⟩ :=
    emits_owed (s := { s with
      levels := []
      owed := List.replicate levels.length .dedent
      atLineStart := false }) h.groups
  rw [h.rest] at hfree
  obtain ⟨brace, line, next, hrun, hbrace, hline, hfresh⟩ :
      ∃ brace line next, Emits middle [brace, line] next ∧ brace.kind = .rightBrace ∧
        line.kind = .newline ∧ Fresh rest next :=
    emits_brace hfree hmiddle (by decide) rfl rfl rfl
  exact ⟨dedents, brace, line, next, .skip hstep (hdedents.append hrun),
    fun token hmem => List.eq_of_mem_replicate (hkinds ▸ List.mem_map_of_mem hmem), hbrace, hline,
    hfresh⟩

/-! ## The line of the keyword -/

end Scanner

namespace Lexeme

/-- Is the word read as a name wherever it stands? -/
def isWord : List Char → Bool
  | [] => false
  | c :: rest =>
      isNameStart c && c ≠ '$' && !c.isDigit && rest.all isNamePart &&
        wordKind (c :: rest) = .identifier

variable {c : Char} {word : List Char}

/-- What a character that starts a name is not. -/
theorem ne_of_isNameStart {d : Char} (hc : isNameStart c = true) (hd : isNameStart d = false) :
    c ≠ d := by
  rintro rfl
  rw [hc] at hd
  contradiction

theorem triviaWidth_of_isNameStart (hc : isNameStart c = true) (lineHasToken : Bool)
    (rest : List Char) : triviaWidth lineHasToken (c :: rest) = 0 := by
  have hne {d : Char} (hd : isNameStart d = false) : c ≠ d := ne_of_isNameStart hc hd
  have hblank : isInlineBlank c = false := by
    simp [isInlineBlank, hne (by decide : isNameStart ' ' = false),
      hne (by decide : isNameStart '\t' = false), hne (by decide : isNameStart '\r' = false)]
  have hslash : c ≠ '/' := hne (by decide)
  rw [triviaWidth_cons, if_neg fun h => hslash h.1, if_neg fun h => hslash h.1,
    if_neg (hne (by decide)), hblank, if_neg Bool.false_ne_true]

theorem scan_of_isWord (h : isWord (c :: word) = true) (afterValue : Bool) {rest : List Char}
    (hrest : ∀ d ∈ rest.head?, isNamePart d = false) :
    scan afterValue c (word ++ rest) = some (plain .identifier (word.length + 1)) := by
  simp only [isWord, Bool.and_eq_true, decide_eq_true_eq, Bool.not_eq_true'] at h
  obtain ⟨⟨⟨⟨hc, hdollar⟩, hdigit⟩, hword⟩, hkind⟩ := h
  have hne {d : Char} (hd : isNameStart d = false) : c ≠ d := ne_of_isNameStart hc hd
  have hname : name c (word ++ rest) = plain .identifier (word.length + 1) := by
    have htake : (word ++ rest).takeWhile isNamePart = word := by
      have hall : ∀ d ∈ word, isNamePart d = true := List.all_eq_true.mp hword
      have hnone : rest.takeWhile isNamePart = [] := by
        cases rest with
        | nil => rfl
        | cons d rest => exact List.takeWhile_cons_of_neg (by simp [hrest d rfl])
      rw [List.takeWhile_append_of_pos hall, hnone, List.append_nil]
    rw [name, htake, hkind]
    rfl
  have hquote : ¬(c = '"' ∨ c = '\'') := by
    rintro (hc | hc)
    · exact hne (by decide) hc
    · exact hne (by decide) hc
  unfold scan
  dsimp only
  rw [if_neg fun h => hne (by decide) h.1, if_neg hquote, if_neg fun h => hdollar h.1, hdigit,
    if_neg Bool.false_ne_true, if_pos hc, hname]

end Lexeme

namespace Scanner

theorem indentation_cons {c : Char} (hblank : Lexeme.isInlineBlank c = false) (rest : List Char) :
    indentation (c :: rest) = 0 := by
  simp only [Lexeme.isInlineBlank, Bool.or_eq_false_iff, decide_eq_false_iff_not] at hblank
  rw [indentation, if_neg hblank.1.1, if_neg hblank.1.2, if_neg hblank.2]

theorem lineHead_cons {c : Char} (hblank : Lexeme.isInlineBlank c = false) (hbreak : c ≠ '\n')
    (hhash : c ≠ '#') (hslash : c ≠ '/') (rest : List Char) : lineHead (c :: rest) = (0, true) := by
  unfold lineHead
  rw [List.takeWhile_cons_of_neg (by simp [hblank])]
  simp [hbreak, hhash, hslash]

theorem startLine_of_isNameStart {c : Char} (hc : Lexeme.isNameStart c = true)
    (h : Free [] (c :: rest) s) : s.startLine = { s with atLineStart := false } := by
  have hne {d : Char} (hd : Lexeme.isNameStart d = false) : c ≠ d := Lexeme.ne_of_isNameStart hc hd
  have hblank : Lexeme.isInlineBlank c = false := by
    simp [Lexeme.isInlineBlank, hne (by decide : Lexeme.isNameStart ' ' = false),
      hne (by decide : Lexeme.isNameStart '\t' = false),
      hne (by decide : Lexeme.isNameStart '\r' = false)]
  have hhead : lineHead (c :: rest) = (0, true) :=
    lineHead_cons hblank (hne (by decide)) (hne (by decide)) (hne (by decide)) rest
  obtain ⟨cursor, levels, owed, atLineStart, lineHasToken, groups, afterValue⟩ := s
  obtain ⟨howed, hgroups, hlevels, hrest⟩ := h
  dsimp only at howed hgroups hlevels hrest
  subst howed hgroups hlevels
  unfold startLine
  rw [hrest, hhead, indentation_cons hblank]
  rfl

/-- A word and an opening brace on a line of their own. -/
theorem emits_keywordLine {word : List Char} (hword : Lexeme.isWord word = true)
    (h : Fresh (word ++ ' ' :: '\x7b' :: '\n' :: rest) s) :
    ∃ keyword brace line next, Emits s [keyword, brace, line] next ∧
      keyword.kind = .identifier ∧ brace.kind = .leftBrace ∧ line.kind = .newline ∧
      Fresh rest next := by
  cases word with
  | nil => contradiction
  | cons c word =>
  have hname : Lexeme.isNameStart c = true := by
    simp only [Lexeme.isWord, Bool.and_eq_true] at hword
    exact hword.1.1.1.1
  have hstart := step_of_lineStart h.owed h.atLineStart h.groups
  rw [startLine_of_isNameStart hname h.toFree] at hstart
  have hspace : ∀ d ∈ (' ' :: '\x7b' :: '\n' :: rest).head?, Lexeme.isNamePart d = false := by
    rintro _ ⟨⟩
    exact show Lexeme.isNamePart ' ' = false by decide
  have hscan := Lexeme.scan_of_isWord hword s.afterValue hspace
  have hlexeme := step_of_lexeme (s := { s with atLineStart := false }) h.owed rfl h.rest
    (Lexeme.triviaWidth_of_isNameStart hname _ _) (Lexeme.ne_of_isNameStart hname (by decide)) hscan
  rw [emitLexeme] at hlexeme
  have hskip : (s.cursor.skip (word.length + 1)).rest = ' ' :: '\x7b' :: '\n' :: rest := by
    rw [Cursor.rest_skip, h.rest, ← List.length_cons (a := c), List.drop_left]
  have hblank := step_of_trivia (s := { s with
    cursor := s.cursor.skip (word.length + 1)
    atLineStart := false
    lineHasToken := true
    afterValue := true }) h.owed rfl hskip Nat.one_pos
  have hbehind : ((s.cursor.skip (word.length + 1)).skip 1).rest = '\x7b' :: '\n' :: rest := by
    rw [Cursor.rest_skip, hskip, List.drop_one, List.tail_cons]
  obtain ⟨brace, line, next, hrun, hbrace, hline, hfresh⟩ := emits_leftBrace (s := { s with
    cursor := (s.cursor.skip (word.length + 1)).skip 1
    atLineStart := false
    lineHasToken := true
    afterValue := true }) ⟨h.owed, h.groups, h.levels, hbehind⟩ rfl
  exact ⟨_, brace, line, next, .skip hstart (.emit hlexeme (.skip hblank hrun)), rfl, hbrace, hline,
    hfresh⟩

/-! ## The end of a text -/

/-- At the end of a text nothing but layout is left. -/
theorem tokens_of_end (hrest : s.cursor.rest = []) (howed : ∀ kind ∈ s.owed, kind.isLayout = true) :
    ∀ token ∈ s.tokens, token.kind.isLayout = true ∨ token.kind = .eof := by
  induction s using Scanner.tokens.induct with
  | case1 s token next hstep ih =>
      have hmoves := hstep ▸ moves_step s
      have hkind : token.kind.isLayout = true ∧ next.cursor.rest = [] ∧
          ∀ kind ∈ next.owed, kind.isLayout = true := by
        cases hmoves with
        | owed hsplit =>
            rw [hsplit] at howed
            exact ⟨howed _ List.mem_cons_self, hrest,
              fun kind hmem => howed kind (List.mem_cons_of_mem _ hmem)⟩
        | endLine | endLevel => exact ⟨rfl, hrest, howed⟩
        | breakLine _ hother | lexeme _ hother =>
            rw [hrest] at hother
            contradiction
      rw [tokens_of_emit hstep]
      intro other hmem
      obtain rfl | hmem := List.mem_cons.mp hmem
      · exact .inl hkind.1
      · exact ih hkind.2.1 hkind.2.2 other hmem
  | case2 s next hstep ih =>
      rw [tokens_of_skip hstep]
      have hmoves := hstep ▸ moves_step s
      cases hmoves with
      | startLine =>
          refine ih ?_ ?_
          · rw [cursor_startLine, Cursor.rest_skip, hrest, List.drop_nil]
          · unfold startLine
            rw [hrest]
            exact howed
      | trivia _ hother | joinLines _ hother | leaveLine _ hother | ignore _ hother =>
          rw [hrest] at hother
          contradiction
  | case3 s token hstep =>
      rw [tokens_of_finish hstep]
      intro other hmem
      rw [List.mem_singleton.mp hmem]
      exact .inr (kind_of_finish hstep)

theorem pos_of_mem_relevel {width level : Nat} (hpos : ∀ level ∈ levels, 0 < level)
    (h : level ∈ (relevel width levels).1) : 0 < level := by
  have hkept {level : Nat} (hmem : level ∈ levels.dropWhile (width < ·)) : 0 < level :=
    hpos level ((List.dropWhile_suffix _).mem hmem)
  unfold relevel at h
  dsimp only at h
  split at h
  next hwider =>
    obtain rfl | hmem := List.mem_cons.mp h
    · exact Nat.lt_of_le_of_lt (Nat.zero_le _) hwider
    · exact hkept hmem
  next => exact hkept h

/-- Open levels have a width. -/
theorem Emits.levels_pos {text : List Char} (h : Emits (ofText text) tokens last) :
    ∀ level ∈ last.levels, 0 < level := by
  refine invariant (fun _ s => ∀ level ∈ s.levels, 0 < level) ?_ ?_ h (by simp [ofText])
  · intro _ s next hpos hstep
    have hmoves := hstep ▸ moves_step s
    cases hmoves with
    | startLine =>
        unfold startLine
        dsimp only
        split
        · exact fun level hmem => pos_of_mem_relevel hpos hmem
        · exact hpos
    | trivia | joinLines | leaveLine | ignore => exact hpos
  · intro _ s token next hpos hstep
    have hmoves := hstep ▸ moves_step s
    cases hmoves with
    | owed | endLine | breakLine | lexeme => exact hpos
    | endLevel _ _ _ hlevels =>
        rw [hlevels] at hpos
        exact fun level hmem => hpos level (List.mem_cons_of_mem _ hmem)

end Scanner

/-! ## Brackets -/

namespace Token

/-- Properly nested groups leave as many round and square brackets open as are among them. -/
theorem foldl_groupsAfter {opened opened' : List Delimiter} {tokens : List Token}
    (h : groupsBehind? opened tokens = some opened') :
    tokens.foldl (fun groups token => Scanner.groupsAfter token.kind groups)
        (opened.countP (· ≠ .brace)) = opened'.countP (· ≠ .brace) := by
  induction tokens generalizing opened with
  | nil =>
      cases h
      rfl
  | cons token rest ih =>
      rw [groupsBehind?_cons, Option.bind_eq_some_iff] at h
      obtain ⟨middle, hmiddle, hrest⟩ := h
      rw [List.foldl_cons, ← ih hrest]
      congr 1
      unfold Delimiter.behind? at hmiddle
      split at hmiddle
      next _ _ delimiter hopening =>
        cases hmiddle
        rw [Delimiter.opening_of_some hopening]
        cases delimiter <;> simp [Delimiter.opening, Scanner.groupsAfter]
      next hopening hclosing =>
        cases hmiddle
        unfold Scanner.groupsAfter
        split <;> first | rfl | simp_all [Delimiter.ofOpening?, Delimiter.ofClosing?]
      next delimiter innermost outer hopening hclosing =>
        split at hmiddle
        next heq =>
          cases hmiddle
          rw [Delimiter.closing_of_some hclosing, ← heq]
          cases delimiter <;> simp [Delimiter.closing, Scanner.groupsAfter]
        next => cases hmiddle
      next => cases hmiddle

theorem openGroups_of_nested {tokens : List Token} (h : groupsBehind? [] tokens = some []) :
    openGroups tokens = 0 :=
  foldl_groupsAfter h

end Token

theorem Token.groupsBehind?_move (shift : Shift) (opened : List Delimiter) (tokens : List Token) :
    groupsBehind? opened (move shift tokens) = groupsBehind? opened tokens := by
  induction tokens generalizing opened with
  | nil => rfl
  | cons token rest ih =>
      change groupsBehind? opened (move shift token :: move shift rest) = _
      rw [groupsBehind?_cons, groupsBehind?_cons]
      exact congrArg _ (funext ih)

/-! ## An element in front of a text -/

/-- An element in braces, which stand at the ends of lines. -/
def blockLines (word inner : List Char) : List Char :=
  word ++ [' ', '\x7b', '\n'] ++ inner ++ ['\n', '\x7d', '\n']

/-- A text that stops at its end leaves the tokens that close it to what comes behind it. -/
theorem Stops.exists_tokens {inner : List Char} (h : Stops inner)
    (hnested : Token.Nested (tokenize inner)) (rest : List Char) :
    ∃ tokens brace line next, Scanner.Emits
        (.ofText (inner ++ '\n' :: '\x7d' :: '\n' :: rest)) (tokens ++ [brace, line]) next ∧
      Token.groupsBehind? [] tokens = some [] ∧ (∀ token ∈ tokens, token.kind ≠ .eof) ∧
      brace.kind = .rightBrace ∧ line.kind = .newline ∧ Scanner.Fresh rest next := by
  obtain ⟨front, stop, hruns⟩ := h.exists_emits
  have hrun := hruns ('\n' :: '\x7d' :: '\n' :: rest) (breaks_cons _)
  have hlayout {kind : TokenKind} (hkind : kind = .indent ∨ kind = .dedent) :
      kind.isLayout = true := by
    obtain rfl | rfl := hkind <;> rfl
  -- Where the text stands alone, nothing but layout is left behind its end.
  have hfront : Token.groupsBehind? [] front = some [] := by
    have halone := hruns [] breaks_nil
    rw [List.append_nil] at halone
    have htail := Scanner.tokens_of_end (s := stop.facing []) rfl
      fun kind hmem => hlayout (halone.layered.owed kind hmem)
    have htokens : tokenize inner = front ++ (stop.facing []).tokens := halone.tokens_eq
    rw [Token.Nested, htokens, Token.groupsBehind?_append, Option.bind_eq_some_iff] at hnested
    obtain ⟨opened, hopened, hrest⟩ := hnested
    rw [Token.groupsBehind?_of_layout htail] at hrest
    cases hrest
    exact hopened
  have hgroups : stop.groups = 0 :=
    hrun.layered.groups.symm.trans (Token.openGroups_of_nested hfront)
  obtain ⟨owed, first, howing, hkinds, hfree, _⟩ :=
    Scanner.emits_owed (s := stop.facing ('\n' :: '\x7d' :: '\n' :: rest)) hgroups
  obtain ⟨breaks, second, hbreak, hnewline, hfree, hstart⟩ := Scanner.emits_break hfree
  obtain ⟨dedents, brace, line, next, hlast, hdedents, hbrace, hline, hfresh⟩ :=
    Scanner.emits_rightBrace hfree hstart hrun.levels_pos
  have hclosing : ∀ token ∈ owed ++ breaks ++ dedents, token.kind.isLayout = true := by
    intro token hmem
    rw [List.mem_append, List.mem_append] at hmem
    obtain (hmem | hmem) | hmem := hmem
    · exact hlayout (hrun.layered.owed _ (hkinds ▸ List.mem_map_of_mem hmem))
    · rw [hnewline token hmem]
      rfl
    · rw [hdedents token hmem]
      rfl
  refine ⟨front ++ (owed ++ breaks ++ dedents), brace, line, next, ?_, ?_, ?_, hbrace, hline,
    hfresh⟩
  · have hwhole := hrun.append (howing.append (hbreak.append hlast))
    simpa only [List.append_assoc] using hwhole
  · rw [Token.groupsBehind?_append, hfront]
    exact Token.groupsBehind?_of_layout (fun token hmem => .inl (hclosing token hmem)) []
  · intro token hmem
    obtain hmem | hmem := List.mem_append.mp hmem
    · obtain ⟨before, after, rfl⟩ := List.append_of_mem hmem
      obtain ⟨_, _, hbefore, hemit, _⟩ := hrun.cut
      exact Scanner.ne_eof_of_emit hbefore hemit
    · intro heof
      have hkind := hclosing token hmem
      rw [heof] at hkind
      contradiction

/-- The tokens of an element in braces, and behind it those of the text that follows. -/
theorem exists_tokenize_blockLines {word inner : List Char} (hword : Lexeme.isWord word = true)
    (hstops : Stops inner) (hnested : Token.Nested (tokenize inner)) (rest : List Char) (ids : Nat) :
    ∃ keyword brace front line, tokenize (blockLines word inner ++ rest) =
        keyword :: brace :: (front ++ line :: move
          ⟨(blockLines word inner).count '\n', Text.byteLength (blockLines word inner), ids⟩
          (tokenize rest)) ∧
      keyword.kind = .identifier ∧ brace.kind = .leftBrace ∧ Closes [.brace] front ∧
      line.kind = .newline := by
  obtain ⟨inside, close, line, last, hinner, hgroups, heof, hclose, hline, hfresh⟩ :=
    hstops.exists_tokens hnested rest
  obtain ⟨keyword, brace, first, middle, hhead, hkeyword, hbrace, hfirst, hmiddle⟩ :=
    Scanner.emits_keywordLine hword
      (Scanner.fresh_ofText (word ++ ' ' :: '\x7b' :: '\n' :: (inner ++ '\n' :: '\x7d' :: '\n' :: rest)))
  have hsplit : word ++ ' ' :: '\x7b' :: '\n' :: (inner ++ '\n' :: '\x7d' :: '\n' :: rest) =
      (word ++ [' ', '\x7b']) ++ '\n' :: (inner ++ '\n' :: '\x7d' :: '\n' :: rest) := by
    simp
  rw [hsplit] at hhead
  have hmiddle := hhead.eq_move hmiddle 0
  generalize (⟨_, _, 0⟩ : Shift) = within at hmiddle
  have hinside := hinner.moved within
  rw [← hmiddle] at hinside
  have hlast : Scanner.Fresh rest (move within last) :=
    ⟨⟨hfresh.owed, hfresh.groups, hfresh.levels, hfresh.rest⟩, hfresh.atLineStart,
      hfresh.lineHasToken, hfresh.afterValue⟩
  have hwhole := hhead.append hinside
  have hlines (rest : List Char) : word ++ [' ', '\x7b'] ++
      '\n' :: (inner ++ '\n' :: '\x7d' :: '\n' :: rest) =
      (word ++ [' ', '\x7b', '\n'] ++ inner ++ ['\n', '\x7d']) ++ '\n' :: rest := by
    simp
  have hblock : blockLines word inner =
      (word ++ [' ', '\x7b', '\n'] ++ inner ++ ['\n', '\x7d']) ++ ['\n'] := by
    simp [blockLines]
  rw [hlines] at hwhole
  have hend := hwhole.eq_move hlast ids
  rw [← hblock] at hend
  have htext : blockLines word inner ++ rest =
      (word ++ [' ', '\x7b', '\n'] ++ inner ++ ['\n', '\x7d']) ++ '\n' :: rest := by
    rw [hblock, List.append_assoc, List.singleton_append]
  refine ⟨keyword, brace, first :: move within inside ++ [move within close], move within line,
    ?_, hkeyword, hbrace, ?_, hline⟩
  · have htokens := hwhole.tokens_eq
    rw [hend, Scanner.tokens_move] at htokens
    rw [htext, tokenize, htokens]
    change [keyword, brace, first] ++ List.map (move within) (inside ++ [close, line]) ++ _ =
      keyword :: brace :: (first :: List.map (move within) inside ++ [move within close] ++ _)
    rw [List.map_append]
    simp only [List.map_cons, List.map_nil, List.cons_append, List.nil_append, List.append_assoc]
    rfl
  · have hcloses : Closes ([] ++ [.brace])
        ((first :: move within inside) ++ [move within close]) := by
      refine .of_groupsBehind? hclose (fun token hmem => ?_) ?_
      · obtain rfl | hmem := List.mem_cons.mp hmem
        · rw [hfirst]
          exact TokenKind.noConfusion
        · obtain ⟨other, hother, rfl⟩ := List.mem_map.mp hmem
          exact heof other hother
      · have hbehind : Delimiter.behind? [] first.kind = some [] := by
          rw [hfirst]
          rfl
        rw [Token.groupsBehind?_cons, hbehind]
        exact (Token.groupsBehind?_move within [] inside).trans hgroups
    exact hcloses

end SceneLang
