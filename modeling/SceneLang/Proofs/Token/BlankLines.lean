import SceneLang.Proofs.Bodies.Tokens
import SceneLang.Proofs.Chunk.Content

/-!
# Blank lines

A line of nothing but blanks and comments between two lines leaves the kinds and the texts of the
tokens as they are, if there is at most one comment on it.  The head of a line is looked through
for one comment only: behind a block comment another comment counts as more, so that the line is
measured, and is as good as blank only if it is indented as far as the level that is open.
-/

namespace SceneLang

open Lexeme Scanner Text
open Movable (move)

/-! ## What a line of comments is made of -/

/-- A line of blanks and so many comments, each of which ends on it. -/
inductive BlankLine : Nat → List Char → Prop
  | empty : BlankLine 0 []
  | blank {c : Char} {comments : Nat} {line : List Char} (hblank : c = ' ' ∨ c = '\t')
      (hline : BlankLine comments line) : BlankLine comments (c :: line)
  | block {body line : List Char} {comments : Nat} (hbreak : '\n' ∉ body)
      (hbody : ¬['*', '/'] <:+: body ++ ['*']) (hline : BlankLine comments line) :
      BlankLine (comments + 1) ('/' :: '*' :: (body ++ '*' :: '/' :: line))
  | comment {mark body : List Char} (hmark : mark = ['#'] ∨ mark = ['/', '/'])
      (hbreak : '\n' ∉ body) : BlankLine 1 (mark ++ body)

variable {comments : Nat} {text line front rest back : List Char}

namespace Lexeme

theorem isInlineBlank_of_blank {c : Char} (h : c = ' ' ∨ c = '\t') : isInlineBlank c = true := by
  obtain rfl | rfl := h <;> rfl

theorem blockWidth_of_closed {body : List Char} (h : ¬['*', '/'] <:+: body ++ ['*'])
    (rest : List Char) : blockWidth (body ++ '*' :: '/' :: rest) = body.length + 2 := by
  induction body with
  | nil => rfl
  | cons c body ih =>
      rw [List.cons_append, List.infix_cons_iff, not_or] at h
      have hend : ¬(c = '*' ∧ (body ++ '*' :: '/' :: rest).head? = some '/') := by
        rintro ⟨rfl, hhead⟩
        cases body with
        | nil => cases hhead
        | cons d body =>
            obtain rfl : d = '/' := Option.some.inj hhead
            exact h.1 ⟨body ++ ['*'], rfl⟩
      rw [List.cons_append, blockWidth_cons hend, ih h.2, List.length_cons]

theorem lineWidth_of_body {body : List Char} (hbreak : '\n' ∉ body) (h : Breaks back) :
    lineWidth (body ++ back) = body.length := by
  have hall : body.takeWhile (· ≠ '\n') = body := by
    rw [List.takeWhile_eq_self_iff]
    rintro c hmem
    exact decide_eq_true fun hc => hbreak (hc ▸ hmem)
  rw [lineWidth, h.takeWhile_append (by decide), hall]

theorem triviaWidth_of_block {body : List Char} (hasToken : Bool)
    (h : ¬['*', '/'] <:+: body ++ ['*']) (rest : List Char) :
    triviaWidth hasToken (['/', '*'] ++ body ++ ['*', '/'] ++ rest) =
      (['/', '*'] ++ body ++ ['*', '/']).length := by
  have hsplit : ['/', '*'] ++ body ++ ['*', '/'] ++ rest =
      '/' :: '*' :: (body ++ '*' :: '/' :: rest) := by simp
  rw [hsplit]
  change blockWidth (body ++ '*' :: '/' :: rest) + 2 = _
  rw [blockWidth_of_closed h]
  simp

theorem triviaWidth_of_line {mark body : List Char} (hmark : mark = ['#'] ∨ mark = ['/', '/'])
    (hbreak : '\n' ∉ body) (hback : Breaks back) :
    triviaWidth false (mark ++ body ++ back) = (mark ++ body).length := by
  have hbody := lineWidth_of_body hbreak hback
  obtain rfl | rfl := hmark
  · change lineWidth (body ++ back) + 1 = _
    rw [hbody]
    rfl
  · change lineWidth (body ++ back) + 2 = _
    rw [hbody]
    rfl

end Lexeme

namespace BlankLine

theorem dropBlanks (h : BlankLine comments line) :
    BlankLine comments (line.dropWhile isInlineBlank) := by
  induction h with
  | empty => exact .empty
  | blank hblank _ ih => rwa [List.dropWhile_cons_of_pos (isInlineBlank_of_blank hblank)]
  | block hbreak hbody hline => exact .block hbreak hbody hline
  | comment hmark hbreak =>
      obtain rfl | rfl := hmark
      · exact .comment (.inl rfl) hbreak
      · exact .comment (.inr rfl) hbreak

/-- Without comments there is nothing but blanks. -/
theorem dropBlanks_eq_nil_iff (h : BlankLine comments line) :
    line.dropWhile isInlineBlank = [] ↔ comments = 0 := by
  induction h with
  | empty => exact ⟨fun _ => rfl, fun _ => rfl⟩
  | blank hblank _ ih => rwa [List.dropWhile_cons_of_pos (isInlineBlank_of_blank hblank)]
  | block =>
      rw [List.dropWhile_cons_of_neg (by decide)]
      simp
  | comment hmark =>
      obtain rfl | rfl := hmark
      · simp [List.dropWhile_cons_of_neg (by decide : ¬isInlineBlank '#' = true)]
      · simp [List.dropWhile_cons_of_neg (by decide : ¬isInlineBlank '/' = true)]

theorem break_notMem (h : BlankLine comments line) : '\n' ∉ line := by
  induction h with
  | empty => exact List.not_mem_nil
  | blank hblank _ ih =>
      obtain rfl | rfl := hblank
      · simpa using ih
      · simpa using ih
  | block hbreak _ _ ih => simp [hbreak, ih]
  | comment hmark hbreak =>
      obtain rfl | rfl := hmark
      · simpa using hbreak
      · simpa using hbreak

/-- Behind a block comment at its head a line counts as blank if there are no more comments. -/
theorem lineHead_of_block {body : List Char} (hbody : ¬['*', '/'] <:+: body ++ ['*'])
    (hline : BlankLine comments line) (hback : Breaks back) :
    lineHead ('/' :: '*' :: (body ++ '*' :: '/' :: (line ++ back))) =
      (0 + 2 + (body.length + 2) + (line.takeWhile isInlineBlank).length,
        !decide (comments = 0)) := by
  have hblank : isInlineBlank '\n' = false := rfl
  have hclosed : (body ++ '*' :: '/' :: (line ++ back)).drop (body.length + 2) = line ++ back := by
    rw [← List.drop_drop, List.drop_left]
    rfl
  have hmore : (line ++ back).drop (line.takeWhile isInlineBlank).length =
      line.dropWhile isInlineBlank ++ back := by
    rw [List.drop_append_of_le_length (List.takeWhile_prefix _).length_le, drop_length_takeWhile]
  have hends : (line.dropWhile isInlineBlank ++ back = [] ∨
      (line.dropWhile isInlineBlank ++ back).head? = some '\n') ↔ comments = 0 := by
    rw [hback.ends_append, ← hline.dropBlanks_eq_nil_iff, or_iff_left]
    exact fun hhead => hline.dropBlanks.break_notMem (List.mem_of_head? hhead)
  unfold lineHead
  rw [List.takeWhile_cons_of_neg (by decide)]
  simp only [List.length_nil, List.drop_zero, blockWidth_of_closed hbody, hclosed,
    hback.takeWhile_append hblank, hmore, hends]

/-- At the head of the line the scanner goes over some of it, and finds more there if there is
more than one comment. -/
theorem exists_lineHead (h : BlankLine comments line) (hback : Breaks back) :
    ∃ front rest left, line = front ++ rest ∧ BlankLine left rest ∧
      lineHead (line ++ back) = (front.length, decide (1 < comments)) := by
  induction h with
  | empty =>
      refine ⟨[], [], 0, rfl, .empty, ?_⟩
      obtain rfl | ⟨rest, rfl⟩ := hback.cases <;> rfl
  | @blank c comments line hblank hline ih =>
      obtain ⟨front, rest, left, rfl, hrest, hhead⟩ := ih
      have hmargin : ∀ d ∈ [c], isMargin d = true := by simpa [isMargin] using hblank
      refine ⟨c :: front, rest, left, rfl, hrest, ?_⟩
      have hmore := lineHead_margin hmargin (front ++ rest ++ back)
      rw [hhead] at hmore
      exact hmore.trans (congrArg (·, _) (Nat.add_comm _ _))
  | @block body line comments hbreak hbody hline =>
      refine ⟨'/' :: '*' :: (body ++ '*' :: '/' :: line.takeWhile isInlineBlank),
        line.dropWhile isInlineBlank, comments, ?_, hline.dropBlanks, ?_⟩
      · simp [List.takeWhile_append_dropWhile]
      simp only [List.cons_append, List.append_assoc, lineHead_of_block hbody hline hback,
        List.length_cons, List.length_append, Prod.mk.injEq]
      refine ⟨by omega, ?_⟩
      rw [← decide_not]
      exact decide_eq_decide.mpr (by omega)
  | @comment mark body hmark hbreak =>
      refine ⟨mark ++ body, [], 0, (List.append_nil _).symm, .empty, ?_⟩
      have hwidth := lineWidth_of_body hbreak hback
      obtain rfl | rfl := hmark
      · change (0 + 1 + lineWidth (body ++ back), false) = _
        rw [hwidth, List.length_append]
        rfl
      · change (0 + 2 + lineWidth (body ++ back), false) = _
        rw [hwidth, List.length_append]
        rfl

end BlankLine

/-! ## The way over the line -/

namespace Scanner

variable {s : Scanner} {levels : List Nat} {width : Nat}

theorem relevel_eq_self (h : levels.headD 0 = width) : relevel width levels = (levels, []) :=
  relevel_back (List.forall_mem_nil _) h

/-- Only an indentation as far as the innermost level owes no layout. -/
theorem headD_of_relevel (h : (relevel width levels).2 = []) : levels.headD 0 = width := by
  have hlevels : (relevel width levels).1 = levels := by
    unfold relevel at h ⊢
    dsimp only at h ⊢
    split at h
    · exact absurd h (by simp)
    next hwide =>
      have hnone : levels.takeWhile (width < ·) = [] := by simpa using h
      have hsplit := List.takeWhile_append_dropWhile (p := (width < ·)) (l := levels)
      rw [hnone, List.nil_append] at hsplit
      rw [if_neg hwide, hsplit]
  exact (congrArg (List.headD · 0) hlevels).symm.trans (headD_relevel width levels)

theorem step_of_filler {inside : List Char} (howed : s.owed = []) (hstart : s.atLineStart = false)
    (hcursor : s.cursor = .behind front (inside ++ back)) (hinside : inside ≠ [])
    (hwidth : triviaWidth s.lineHasToken (inside ++ back) = inside.length) :
    s.step = .skip { s with cursor := .behind (front ++ inside) back } := by
  obtain ⟨c, inside, rfl⟩ := List.exists_cons_of_ne_nil hinside
  have hrest : s.cursor.rest = c :: (inside ++ back) := by rw [hcursor]; rfl
  have hstep := step_of_trivia howed hstart hrest (hwidth ▸ Nat.succ_pos _)
  have hskip := Cursor.skip_behind (c :: inside).length front (c :: inside ++ back)
  rw [List.take_left, List.drop_left] at hskip
  rw [hstep, ← List.cons_append, hwidth, hcursor, hskip]

end Scanner

/-- Where no token of the line has been found the comments on it are gone over one by one. -/
theorem BlankLine.emits {s : Scanner} (h : BlankLine comments line) (hback : Breaks back)
    (howed : s.owed = []) (hstart : s.atLineStart = false) (hline : s.lineHasToken = false)
    (hcursor : s.cursor = .behind front (line ++ back)) :
    Emits s [] { s with cursor := .behind (front ++ line) back } := by
  induction h generalizing s front with
  | empty =>
      rw [List.append_nil]
      exact hcursor ▸ .refl s
  | @blank c comments line hblank _ ih =>
      have hwidth : triviaWidth s.lineHasToken ([c] ++ (line ++ back)) = [c].length := by
        obtain rfl | rfl := hblank <;> rfl
      have hmore := ih (s := { s with cursor := .behind (front ++ [c]) (line ++ back) })
        howed hstart hline rfl
      have hcursor : s.cursor = .behind front ([c] ++ (line ++ back)) := hcursor
      have hstep := step_of_filler howed hstart hcursor (List.cons_ne_nil c []) hwidth
      rw [List.append_cons]
      exact .skip hstep hmore
  | @block body line comments _ hbody _ ih =>
      have hsplit (back : List Char) : '/' :: '*' :: (body ++ '*' :: '/' :: line) ++ back =
          ['/', '*'] ++ body ++ ['*', '/'] ++ (line ++ back) := by simp
      rw [hsplit] at hcursor
      have hmore := ih (s := { s with
        cursor := .behind (front ++ (['/', '*'] ++ body ++ ['*', '/'])) (line ++ back) })
        howed hstart hline rfl
      have hstep := step_of_filler howed hstart hcursor (by simp)
        (triviaWidth_of_block s.lineHasToken hbody _)
      have hsplit := hsplit []
      rw [List.append_nil, List.append_nil] at hsplit
      rw [hsplit, ← List.append_assoc]
      exact .skip hstep hmore
  | @comment mark body hmark hbreak =>
      have hwidth := triviaWidth_of_line hmark hbreak hback
      rw [← hline] at hwidth
      have hne : mark ++ body ≠ [] := by obtain rfl | rfl := hmark <;> simp
      exact .skip (step_of_filler howed hstart hcursor hne hwidth) (.refl _)

/-- A line of comments leaves the scanner as it is, but for where it stands. -/
theorem BlankLine.emits_line {s : Scanner} {levels : List Nat} (h : BlankLine comments line)
    (hbegins : Begins levels (line ++ '\n' :: rest) s)
    (hcursor : s.cursor = .behind front (line ++ '\n' :: rest))
    (hlevel : comments ≤ 1 ∨ levels.headD 0 = indentation line) :
    Emits s [] { s with cursor := .behind (front ++ (line ++ ['\n'])) rest } := by
  obtain ⟨start, more, left, rfl, hmore, hhead⟩ := h.exists_lineHead (breaks_cons rest)
  have hskip : s.cursor.skip start.length = .behind (front ++ start) (more ++ '\n' :: rest) := by
    rw [hcursor, Cursor.skip_behind, List.append_assoc, List.take_left, List.drop_left]
  have hstarted : s.startLine = { s with
      cursor := .behind (front ++ start) (more ++ '\n' :: rest)
      atLineStart := false } := by
    unfold startLine
    rw [hbegins.rest, hhead]
    dsimp only
    rw [hskip]
    split
    next hmany =>
      have hwidth := hlevel.resolve_left (Nat.not_le_of_lt (of_decide_eq_true hmany))
      rw [indentation_append (breaks_cons rest), hbegins.levels, relevel_eq_self hwidth]
      rw [← hbegins.levels, ← hbegins.owed]
    next => rfl
  have hstart := step_of_lineStart hbegins.owed hbegins.atLineStart hbegins.groups
  rw [hstarted] at hstart
  have hrun := hmore.emits (s := { s with
    cursor := .behind (front ++ start) (more ++ '\n' :: rest)
    atLineStart := false }) (breaks_cons rest) hbegins.owed rfl hbegins.lineHasToken rfl
  have hend := step_of_break (s := { s with
    cursor := .behind (front ++ start ++ more) ('\n' :: rest)
    atLineStart := false }) hbegins.owed rfl rfl
  rw [breakLine, if_neg (by simp [hbegins.groups]), if_neg (by simp [hbegins.lineHasToken])] at hend
  have hlast := hrun.append (.skip hend (.refl _))
  dsimp only at hlast
  rw [Cursor.next_behind, ← hbegins.atLineStart] at hlast
  simp only [List.append_assoc] at hlast ⊢
  exact .skip hstart hlast

/-! ## Where lines begin -/

namespace Token

theorem openGroups_append_of_layout {front back : List Token}
    (h : ∀ token ∈ back, token.kind.isLayout = true ∨ token.kind = .eof) :
    openGroups (front ++ back) = openGroups front := by
  induction back using List.reverseRecOn with
  | nil => rw [List.append_nil]
  | append_singleton back token ih =>
      have hkept : groupsAfter token.kind (openGroups front) = openGroups front := by
        have hkind := h token List.mem_concat_self
        unfold groupsAfter
        split <;> simp_all [TokenKind.isLayout]
      rw [← List.append_assoc, openGroups_append_singleton,
        ih fun other hmem => h other (List.mem_append_left _ hmem), hkept]

end Token

/-- The text is empty, or it ends with a line break that is part of no token and no comment, and
that stands outside of round and square brackets. -/
def EndsFreely (text : List Char) : Prop :=
  text = [] ∨ ∃ line, text = line ++ ['\n'] ∧ Stops line ∧ Token.openGroups (tokenize line) = 0

namespace Scanner

variable {s next last : Scanner} {tokens : List Token}

/-- The levels that are open where the scanner comes to the end of the text. -/
def openLevels (s : Scanner) : List Nat :=
  if s.cursor.rest = [] then s.levels
  else
    match _hstep : s.step with
    | .emit _ next | .skip next => next.openLevels
    | .finish _ => s.levels
termination_by s.measure
decreasing_by
  · exact measure_emit _hstep
  · exact measure_skip _hstep

theorem openLevels_of_step (hrest : s.cursor.rest ≠ []) (hnext : s.step.next? = some next) :
    s.openLevels = next.openLevels := by
  rw [openLevels, if_neg hrest]
  split <;> simp_all [Step.next?]

theorem Emits.openLevels_eq (h : Emits s tokens last) (hlast : last.cursor.rest ≠ []) :
    s.openLevels = last.openLevels := by
  have hahead {s : Scanner} {tokens : List Token} (h : Emits s tokens last) :
      s.cursor.rest ≠ [] := fun hnil => by
    have hlength := h.length_le
    rw [hnil] at hlength
    exact hlast (List.eq_nil_of_length_eq_zero (Nat.eq_zero_of_le_zero hlength))
  induction h with
  | refl => rfl
  | skip hstep hrun ih =>
      rw [openLevels_of_step (hahead (.skip hstep hrun)) (congrArg Step.next? hstep),
        ih hlast hahead]
  | emit hstep hrun ih =>
      rw [openLevels_of_step (hahead (.emit hstep hrun)) (congrArg Step.next? hstep),
        ih hlast hahead]

/-- The scanner within the line, behind the layout that it owes. -/
def inLine (s : Scanner) : Scanner :=
  { s.settled with atLineStart := false }

/-- In front of a line break outside of brackets only what is owed is emitted. -/
theorem emits_inLine (hgroups : s.groups = 0) (rest : List Char) :
    Emits (s.facing ('\n' :: rest)) (s.owed.map s.mark) (s.inLine.facing ('\n' :: rest)) := by
  have hrun : Emits (s.facing ('\n' :: rest)) (s.owed.map s.mark)
      (s.settled.facing ('\n' :: rest)) := emits_settled (s.facing ('\n' :: rest))
  cases hstart : s.atLineStart with
  | false =>
      have hsame : s.inLine = s.settled := by
        rw [inLine, ← hstart]
        rfl
      rwa [hsame]
  | true =>
      have hfree : Free s.levels ('\n' :: rest) (s.settled.facing ('\n' :: rest)) :=
        ⟨rfl, hgroups, rfl, rfl⟩
      have hstep := step_of_lineStart hfree.owed hstart hgroups
      rw [startLine_of_break hfree] at hstep
      have hwhole := hrun.append (.skip hstep (.refl _))
      rwa [List.append_nil] at hwhole

/-- The scanner behind a line break outside of brackets. -/
def pastBreak (s : Scanner) : Scanner :=
  { s with
    cursor := (s.cursor.facing ['\n']).next
    atLineStart := true
    lineHasToken := false
    afterValue := s.afterValue && !s.lineHasToken }

/-- A line break does the same whatever stands behind it. -/
theorem exists_emits_pastBreak (howed : s.owed = []) (hstart : s.atLineStart = false)
    (hgroups : s.groups = 0) : ∃ emitted, ∀ rest,
      Emits (s.facing ('\n' :: rest)) emitted (s.pastBreak.facing rest) ∧
      (s.facing ('\n' :: rest)).step.next? = some (s.pastBreak.facing rest) := by
  have hstep (rest : List Char) := step_of_break (s := s.facing ('\n' :: rest)) howed hstart rfl
  have hbreak (rest : List Char) : (s.facing ('\n' :: rest)).breakLine =
      if s.lineHasToken then .emit ⟨.newline, "\n",
          ⟨s.cursor.offset, s.pastBreak.cursor.offset⟩, s.cursor.position⟩ (s.pastBreak.facing rest)
      else .skip (s.pastBreak.facing rest) := by
    obtain ⟨cursor, levels, owed, atLineStart, lineHasToken, groups, afterValue⟩ := s
    obtain rfl : groups = 0 := hgroups
    cases lineHasToken <;> cases afterValue <;> rfl
  cases hline : s.lineHasToken with
  | true =>
      simp only [hline, if_true] at hbreak
      exact ⟨_, fun rest => ⟨.emit ((hstep rest).trans (hbreak rest)) (.refl _),
        congrArg Step.next? ((hstep rest).trans (hbreak rest))⟩⟩
  | false =>
      simp only [hline, Bool.false_eq_true, if_false] at hbreak
      exact ⟨[], fun rest => ⟨.skip ((hstep rest).trans (hbreak rest)) (.refl _),
        congrArg Step.next? ((hstep rest).trans (hbreak rest))⟩⟩

end Scanner

/-- Behind the text a line begins, whatever it is, with the levels that the text leaves open. -/
theorem EndsFreely.exists_begins (h : EndsFreely text) :
    ∃ emitted, ∃ start : Scanner, start.levels = (ofText text).openLevels ∧
      ∀ rest, Begins start.levels rest (start.facing rest) ∧
        Emits (ofText (text ++ rest)) emitted (start.facing rest) := by
  obtain rfl | ⟨line, rfl, hstops, hgroups⟩ := h
  · refine ⟨[], ofText [], ?_, fun rest => ⟨⟨⟨rfl, rfl, rfl, rfl⟩, rfl, rfl⟩, .refl _⟩⟩
    rw [openLevels]
    exact (if_pos rfl).symm
  obtain ⟨front, stop, hruns⟩ := hstops.exists_emits
  have hnone : stop.groups = 0 := by
    have halone := hruns [] breaks_nil
    rw [List.append_nil] at halone
    have htail := tokens_of_end (s := stop.facing []) rfl fun kind hmem => by
      obtain rfl | rfl := halone.layered.owed kind hmem <;> rfl
    have htokens : tokenize line = front ++ (stop.facing []).tokens := halone.tokens_eq
    rw [htokens, Token.openGroups_append_of_layout htail] at hgroups
    exact halone.layered.groups.symm.trans hgroups
  obtain ⟨emitted, hbreak⟩ := exists_emits_pastBreak (s := stop.inLine) rfl rfl hnone
  have hrun (rest : List Char) :=
    (hruns ('\n' :: rest) (breaks_cons rest)).append (emits_inLine hnone rest)
  refine ⟨front ++ stop.owed.map stop.mark ++ emitted, stop.inLine.pastBreak, ?_,
    fun rest => ⟨⟨⟨rfl, hnone, rfl, rfl⟩, rfl, rfl⟩, ?_⟩⟩
  · have hlevels := (hrun []).openLevels_eq (List.cons_ne_nil _ _)
    have hend : (stop.inLine.pastBreak.facing []).openLevels = stop.inLine.pastBreak.levels := by
      rw [openLevels]
      exact if_pos rfl
    rw [openLevels_of_step (List.cons_ne_nil _ _) (hbreak []).2, hend] at hlevels
    exact hlevels.symm
  · rw [List.append_assoc line, List.singleton_append]
    exact (hrun rest).append (hbreak rest).1

/-! ## What a blank line changes -/

/-- What a token reads, wherever it stands. -/
def Token.look (token : Token) : TokenKind × String :=
  (token.kind, token.text)

theorem Token.look_move (shift : Shift) (tokens : List Token) :
    (move shift tokens).map look = tokens.map look := by
  change (tokens.map (move shift)).map look = _
  rw [List.map_map]
  rfl

namespace Scanner

/-- The scanner at the start of a text of its own. -/
def reading (s : Scanner) (text : List Char) : Scanner :=
  { s with cursor := .ofText text }

/-- Behind whole lines the same is read as at the start of a text. -/
theorem look_tokens {s : Scanner} (hcursor : s.cursor = .behind front rest)
    (hfront : EndsLine front) :
    s.tokens.map Token.look = (s.reading rest).tokens.map Token.look := by
  have hmove : s = move ⟨front.count '\n', byteLength front, 0⟩ (s.reading rest) := by
    obtain ⟨cursor, levels, owed, atLineStart, lineHasToken, groups, afterValue⟩ := s
    obtain rfl : cursor = .behind front rest := hcursor
    rw [Cursor.behind_of_endsLine hfront rest 0]
    rfl
  have htokens := (congrArg tokens hmove).trans (tokens_move _ _)
  rw [htokens, Token.look_move]

end Scanner

theorem EndsFreely.endsLine (h : EndsFreely text) : EndsLine text := by
  obtain rfl | ⟨line, rfl, -⟩ := h
  · exact .inl rfl
  · exact .inr List.getLast?_concat

/-- What is read behind the text depends on the levels that it leaves open only. -/
theorem EndsFreely.exists_look (h : EndsFreely text) :
    ∃ emitted, ∃ start : Scanner, start.levels = (ofText text).openLevels ∧
      ∀ rest, Begins start.levels rest (start.reading rest) ∧
        (tokenize (text ++ rest)).map Token.look =
          emitted ++ (start.reading rest).tokens.map Token.look := by
  obtain ⟨emitted, start, hlevels, hstart⟩ := h.exists_begins
  refine ⟨emitted.map Token.look, start, hlevels, fun rest => ?_⟩
  obtain ⟨hbegins, hrun⟩ := hstart rest
  refine ⟨⟨⟨hbegins.owed, hbegins.groups, rfl, rfl⟩, hbegins.atLineStart,
    hbegins.lineHasToken⟩, ?_⟩
  obtain ⟨before, behind, htext, hcursor⟩ := hrun.in
  obtain rfl : rest = behind := congrArg Cursor.rest hcursor
  obtain rfl : text = before := List.append_cancel_right htext
  have htokens : tokenize (text ++ rest) = emitted ++ (start.facing rest).tokens := hrun.tokens_eq
  rw [htokens, List.map_append, look_tokens hcursor h.endsLine]
  rfl

/-- A line that is measured, and is not indented as far as the innermost level, is read as layout
first. -/
theorem BlankLine.layout_of_measured {s : Scanner} {levels : List Nat}
    (h : BlankLine comments line) (hbegins : Begins levels (line ++ '\n' :: rest) s)
    (hmany : 1 < comments) (hlevel : levels.headD 0 ≠ indentation line) :
    ∃ mark tokens, s.tokens = mark :: tokens ∧ mark.kind.isLayout = true := by
  obtain ⟨start, more, left, -, -, hhead⟩ := h.exists_lineHead (breaks_cons rest)
  have howed : s.startLine.owed = (relevel (indentation line) levels).2 := by
    unfold startLine
    rw [hbegins.rest, hhead]
    dsimp only
    rw [if_pos (decide_eq_true hmany), indentation_append (breaks_cons rest), hbegins.levels]
  obtain ⟨kind, owed, hkinds⟩ := List.exists_cons_of_ne_nil fun hnone =>
    hlevel (headD_of_relevel hnone)
  have hstart := step_of_lineStart hbegins.owed hbegins.atLineStart hbegins.groups
  have hstep := step_of_owed (howed.trans hkinds)
  refine ⟨_, _, (tokens_of_skip hstart).trans (tokens_of_emit hstep), ?_⟩
  obtain hkind | hkind := mem_relevel (hkinds ▸ List.mem_cons_self)
  all_goals
    change kind.isLayout = true
    rw [hkind]
    rfl

/-- A line that is indented as far as the innermost level is read without layout. -/
theorem Scanner.Begins.solid_of_margin {s : Scanner} {levels : List Nat}
    (h : Begins levels (List.replicate (levels.headD 0) ' ' ++ ['@']) s) :
    ∃ token tokens, s.tokens = token :: tokens ∧ token.kind.isLayout = false := by
  have hmargin : ∀ c ∈ List.replicate (levels.headD 0) ' ', c = ' ' ∨ c = '\t' := fun c hmem =>
    .inl (List.eq_of_mem_replicate hmem)
  obtain ⟨marks, inside, hrun, hmarks, hinside⟩ := emits_margin hmargin (opens_at []) h
  rw [Outline.indentation_replicate, relevel_eq_self rfl, List.map_eq_nil_iff] at hmarks
  obtain ⟨token, next, hstep, hkind, -⟩ := step_of_mark isMark_at hinside
  refine ⟨token, next.tokens, ?_, by rw [hkind]; rfl⟩
  rw [hrun.tokens_eq, hmarks, List.nil_append, tokens_of_emit hstep]

/-- A line of comments leaves the kinds and the texts of the tokens as they are, whatever stands
behind it, just if there is no more than one comment on it or it is indented as far as the
innermost level that is open there. -/
theorem look_tokenize_blankLine_iff (h : EndsFreely text) (hline : BlankLine comments line) :
    (∀ rest, (tokenize (text ++ (line ++ '\n' :: rest))).map Token.look =
        (tokenize (text ++ rest)).map Token.look) ↔
      comments ≤ 1 ∨ (ofText text).openLevels.headD 0 = indentation line := by
  obtain ⟨emitted, start, hlevels, hstart⟩ := h.exists_look
  rw [← hlevels]
  simp only [fun rest => (hstart rest).2, List.append_cancel_left_eq]
  constructor
  · intro hsame
    by_contra hnot
    rw [not_or, Nat.not_le] at hnot
    have hsame := hsame (List.replicate (start.levels.headD 0) ' ' ++ ['@'])
    obtain ⟨mark, tokens, hmarks, hlayout⟩ :=
      hline.layout_of_measured (hstart _).1 hnot.1 hnot.2
    obtain ⟨token, others, htokens, hsolid⟩ := (hstart _).1.solid_of_margin
    rw [hmarks, htokens] at hsame
    have hkind : mark.kind = token.kind := congrArg Prod.fst (List.cons.inj hsame).1
    rw [hkind, hsolid] at hlayout
    contradiction
  · intro hlevel rest
    have hcursor : (start.reading (line ++ '\n' :: rest)).cursor =
        .behind [] (line ++ '\n' :: rest) := rfl
    have hrun := hline.emits_line (hstart (line ++ '\n' :: rest)).1 hcursor hlevel
    rw [hrun.tokens_eq]
    exact look_tokens rfl (.inr List.getLast?_concat)

/-- A line with a note, which is indented less than the one above it. -/
theorem look_tokenize_blankLine_note :
    EndsFreely "a\n    b\n".toList ∧ BlankLine 1 " # note".toList ∧
      (tokenize ("a\n    b\n".toList ++ (" # note".toList ++ '\n' :: "    c".toList))).map
          Token.look =
        (tokenize ("a\n    b\n".toList ++ "    c".toList)).map Token.look := by
  have hends : EndsFreely "a\n    b\n".toList :=
    .inr ⟨"a\n    b".toList, by decide +kernel, by decide +kernel, by decide +kernel⟩
  have hblank : BlankLine 1 " # note".toList := by
    have hnote : BlankLine 1 (' ' :: (['#'] ++ " note".toList)) :=
      .blank (.inl rfl) (.comment (.inl rfl) (by decide +kernel))
    have hsame : ' ' :: (['#'] ++ " note".toList) = " # note".toList := by decide +kernel
    rwa [hsame] at hnote
  refine ⟨hends, hblank, ?_⟩
  exact (look_tokenize_blankLine_iff hends hblank).mpr (.inl (Nat.le_refl 1)) "    c".toList

/-- Two comments on a line open a level of their own. -/
theorem not_look_tokenize_blankLine :
    ¬∀ text line comments rest, EndsFreely text → BlankLine comments line →
      (tokenize (text ++ (line ++ '\n' :: rest))).map Token.look =
        (tokenize (text ++ rest)).map Token.look := by
  intro h
  have hblank : BlankLine 2 "  /* x */ // y".toList := by
    have hline : BlankLine 2 (' ' :: ' ' :: '/' :: '*' ::
        (" x ".toList ++ '*' :: '/' :: ' ' :: (['/', '/'] ++ " y".toList))) :=
      .blank (.inl rfl) (.blank (.inl rfl) (.block (by decide +kernel) (by decide +kernel)
        (.blank (.inl rfl) (.comment (.inr rfl) (by decide +kernel)))))
    have hsame : ' ' :: ' ' :: '/' :: '*' ::
        (" x ".toList ++ '*' :: '/' :: ' ' :: (['/', '/'] ++ " y".toList)) =
        "  /* x */ // y".toList := by decide +kernel
    rwa [hsame] at hline
  have hsame := h [] "  /* x */ // y".toList 2 "a\n".toList (.inl rfl) hblank
  revert hsame
  decide +kernel

end SceneLang
