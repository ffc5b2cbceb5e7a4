import SceneLang.Proofs.Token.Block
import SceneLang.Proofs.Token.Cutoff
import SceneLang.Proofs.Token.LineEnds

/-!
# Excerpts of a text

Two scanners read the same text, the one with more of it behind a place, the other with nothing
there.  The levels that are open may differ, and so may the layout that follows from them; the
other tokens up to that place are the same.
-/

namespace SceneLang

namespace Scanner

variable {s s' next last : Scanner} {token : Token} {tokens : List Token} {back : List Char}

/-! ## Steps within a line -/

theorem step_of_ignored {c : Char} {rest : List Char} (howed : s.owed = [])
    (hstart : s.atLineStart = false) (hrest : s.cursor.rest = c :: rest)
    (htrivia : Lexeme.triviaWidth s.lineHasToken (c :: rest) = 0) (hbreak : c ≠ '\n')
    (hscan : Lexeme.scan s.afterValue c rest = none) :
    s.step = .skip { s with cursor := s.cursor.next } := by
  unfold step
  rw [howed, hstart, hrest]
  dsimp only
  rw [if_neg (by simp), htrivia, if_neg (Nat.lt_irrefl 0), if_neg hbreak, hscan]

theorem owed_of_skip (hstep : s.step = .skip next) : s.owed = [] := by
  have hmoves := hstep ▸ moves_step s
  cases hmoves <;> assumption

/-- A step that finds a character goes on behind it. -/
theorem rest_lt_of_step (howed : s.owed = []) (hstart : s.atLineStart = false)
    (hrest : s.cursor.rest ≠ []) (hnext : next ∈ s.step.next?) :
    next.cursor.rest.length < s.cursor.rest.length := by
  have hmoves := moves_step s
  have hless {width : Nat} (hwidth : 0 < width) :
      (s.cursor.skip width).rest.length < s.cursor.rest.length := by
    have hpos := List.length_pos_iff.mpr hrest
    rw [Cursor.rest_skip, List.length_drop]
    omega
  generalize s.step = step at hmoves hnext
  cases hmoves with
  | owed hsome => simp [howed] at hsome
  | startLine _ hsome => simp [hstart] at hsome
  | endLine _ hnil | endLevel _ hnil | finish _ hnil => exact absurd hnil hrest
  | trivia _ _ hwidth =>
      cases hnext
      exact hless hwidth
  | joinLines | breakLine | leaveLine | ignore =>
      cases hnext
      exact hless Nat.one_pos
  | lexeme _ _ _ hscan =>
      cases hnext
      exact hless (Lexeme.width_pos_of_scan hscan)

theorem exists_next_of_rest (hrest : s.cursor.rest ≠ []) : ∃ next, next ∈ s.step.next? := by
  have hmoves := moves_step s
  generalize s.step = step at hmoves
  cases hmoves with
  | finish _ hnil => exact absurd hnil hrest
  | _ => exact ⟨_, rfl⟩

/-! ## Scanners of an excerpt -/

theorem startLine_keeps (s : Scanner) : s.startLine.lineHasToken = s.lineHasToken ∧
    s.startLine.groups = s.groups ∧ s.startLine.afterValue = s.afterValue ∧
    (s.owed = [] → ∀ kind ∈ s.startLine.owed, kind.isLayout = true) := by
  unfold startLine
  dsimp only
  split
  · refine ⟨rfl, rfl, rfl, fun _ kind hmem => ?_⟩
    obtain rfl | rfl := mem_relevel hmem <;> rfl
  · exact ⟨rfl, rfl, rfl, fun howed => by simp [howed]⟩

/-- The scanner with nothing behind this text, and with other levels. -/
def excerpt (s : Scanner) (front : List Char) (levels : List Nat) (owed : List TokenKind) :
    Scanner :=
  { s with cursor := s.cursor.facing front, levels := levels, owed := owed }

theorem eq_excerpt {front : List Char} (hcursor : s'.cursor = s.cursor.facing front)
    (hstart : s'.atLineStart = s.atLineStart) (hline : s'.lineHasToken = s.lineHasToken)
    (hgroups : s'.groups = s.groups) (hvalue : s'.afterValue = s.afterValue) :
    s' = s.excerpt front s'.levels s'.owed := by
  rw [excerpt, ← hcursor, ← hstart, ← hline, ← hgroups, ← hvalue]

/-- What is skipped in front of the place is skipped with nothing behind it. -/
theorem skip_excerpt {cursor : Cursor} {front : List Char} {width : Nat}
    (hrest : cursor.rest = front ++ back) (hwidth : width ≤ front.length ∨ back = []) :
    (cursor.skip width).rest = front.drop width ++ back ∧
      (cursor.facing front).skip width = (cursor.skip width).facing (front.drop width) := by
  obtain hwidth | rfl := hwidth
  · have hskip := Cursor.skip_facing hrest hwidth []
    rw [List.append_nil, List.append_nil] at hskip
    exact ⟨Cursor.rest_skip_of_le hrest hwidth, hskip⟩
  · rw [List.append_nil] at hrest
    have hskip : (cursor.skip width).rest = front.drop width := by rw [Cursor.rest_skip, hrest]
    refine ⟨by rw [hskip, List.append_nil], ?_⟩
    rw [← hskip, ← hrest]
    rfl

/-- The second scanner reads the text of the first one as far as `back`.  Layout is owed only where
no other token of the line has been found. -/
structure Excerpt (back : List Char) (s s' : Scanner) : Prop where
  reads : ∃ front levels owed, s.cursor.rest = front ++ back ∧ s' = s.excerpt front levels owed
  owed : ∀ kind ∈ s.owed ++ s'.owed, s.lineHasToken = false ∧ kind.isLayout = true
  begins : s.atLineStart = true → s.lineHasToken = false ∧ s.groups = 0
  value : s.lineHasToken = false → s.afterValue = false

namespace Excerpt

theorem lineStart (h : Excerpt back s s') :
    s'.atLineStart = s.atLineStart ∧ s'.groups = s.groups := by
  obtain ⟨front, levels, owed, -, rfl⟩ := h.reads
  exact ⟨rfl, rfl⟩

/-- Layout that only one of the scanners owes does not matter. -/
theorem pay (h : Excerpt back s s') {kind : TokenKind} {owed : List TokenKind}
    (howed : s.owed = kind :: owed) :
    Excerpt back { s with owed := owed, afterValue := false } s' := by
  obtain ⟨hline, -⟩ := h.owed kind (by simp [howed])
  obtain ⟨front, levels, owed', hrest, rfl⟩ := h.reads
  refine ⟨⟨front, levels, owed', hrest, ?_⟩, fun other hmem => h.owed other ?_, h.begins,
    fun _ => rfl⟩
  · rw [excerpt, h.value hline]
    rfl
  · rw [howed]
    exact List.mem_cons_of_mem _ hmem

theorem settle (h : Excerpt back s s') :
    ∃ marks settled, Emits s' marks settled ∧ (∀ mark ∈ marks, mark.kind.isLayout = true) ∧
      settled.owed = [] ∧ Excerpt back s settled := by
  generalize howed : s'.owed = owed
  induction owed generalizing s' with
  | nil => exact ⟨[], s', .refl s', List.forall_mem_nil _, howed, h⟩
  | cons kind owed ih =>
      obtain ⟨hline, hkind⟩ := h.owed kind (by simp [howed])
      have hnext : Excerpt back s { s' with owed := owed, afterValue := false } := by
        refine ⟨?_, fun other hmem => h.owed other ?_, h.begins, h.value⟩
        · obtain ⟨front, levels, _, hrest, rfl⟩ := h.reads
          exact ⟨front, levels, owed, hrest, by rw [excerpt, excerpt, h.value hline]⟩
        · rw [howed]
          simp only [List.mem_append, List.mem_cons] at hmem ⊢
          exact hmem.imp_right .inr
      obtain ⟨marks, settled, hrun, hmarks, hsettled, hlast⟩ := ih hnext rfl
      exact ⟨_, settled, .emit (step_of_owed howed) hrun,
        List.forall_mem_cons.mpr ⟨hkind, hmarks⟩, hsettled, hlast⟩

/-- Both scanners begin a line behind the same blanks and comments. -/
theorem startLine (h : Excerpt back s s') (howed : s.owed = []) (howed' : s'.owed = [])
    (hstart : s.atLineStart = true) (hinside : back.length < s.startLine.cursor.rest.length) :
    Excerpt back s.startLine s'.startLine := by
  obtain ⟨hline, hgroups, hvalue, howes⟩ := startLine_keeps s
  obtain ⟨hline', hgroups', hvalue', howes'⟩ := startLine_keeps s'
  have hlater := atLineStart_startLine (s := s)
  have hlater' := atLineStart_startLine (s := s')
  refine ⟨?_, fun kind hmem => ⟨hline.trans (h.begins hstart).1, ?_⟩, fun hagain => ?_, ?_⟩
  · obtain ⟨front, levels, owed, hrest, rfl⟩ := h.reads
    rw [cursor_startLine, Cursor.rest_skip, hrest, List.length_drop, List.length_append] at hinside
    have hwidth : (lineHead (front ++ back)).1 < front.length := by omega
    have hle := Nat.le_of_lt hwidth
    have hcursor : (s.excerpt front levels owed).startLine.cursor =
        s.startLine.cursor.facing (front.drop (lineHead (front ++ back)).1) := by
      rw [cursor_startLine, cursor_startLine, hrest]
      change (s.cursor.facing front).skip (lineHead front).1 = _
      rw [← lineHead_cutoff hwidth, (skip_excerpt hrest (.inl hle)).2]
    refine ⟨front.drop (lineHead (front ++ back)).1, (s.excerpt front levels owed).startLine.levels,
      (s.excerpt front levels owed).startLine.owed, ?_, ?_⟩
    · rw [cursor_startLine, hrest, (skip_excerpt hrest (.inl hle)).1]
    · exact eq_excerpt hcursor (hlater'.trans hlater.symm) (hline'.trans hline.symm)
        (hgroups'.trans hgroups.symm) (hvalue'.trans hvalue.symm)
  · obtain hmem | hmem := List.mem_append.mp hmem
    · exact howes howed kind hmem
    · exact howes' howed' kind hmem
  · rw [hlater] at hagain
    contradiction
  · rw [hline, hvalue]
    exact h.value

/-- The steps do the same and lead to scanners of the excerpt. -/
inductive Alike (back : List Char) : Step → Step → Prop
  | skip {next next' : Scanner} (h : Excerpt back next next') :
      Alike back (.skip next) (.skip next')
  | emit {next next' : Scanner} (token : Token) (h : Excerpt back next next') :
      Alike back (.emit token next) (.emit token next')

/-- Scanners of the excerpt further on in their line. -/
theorem skipped {front : List Char} {levels : List Nat} {width : Nat}
    (h : Excerpt back s (s.excerpt front levels [])) (hrest : s.cursor.rest = front ++ back)
    (hwidth : width ≤ front.length ∨ back = []) :
    Excerpt back { s with cursor := s.cursor.skip width }
      { s.excerpt front levels [] with cursor := (s.cursor.facing front).skip width } := by
  obtain ⟨hskip, hskip'⟩ := skip_excerpt hrest hwidth
  exact ⟨⟨front.drop width, levels, [], hskip, hskip' ▸ rfl⟩, h.owed, h.begins, h.value⟩

theorem emitLexeme {front : List Char} {lexeme : Lexeme} (howed : s.owed = [])
    (hstart : s.atLineStart = false) (hrest : s.cursor.rest = front ++ back)
    (hwidth : lexeme.width ≤ front.length ∨ back = []) (levels : List Nat) :
    Alike back (s.emitLexeme lexeme) ((s.excerpt front levels []).emitLexeme lexeme) := by
  obtain ⟨hskip, hskip'⟩ := skip_excerpt hrest hwidth
  have htake : front.take lexeme.width = s.cursor.rest.take lexeme.width := by
    obtain hwidth | rfl := hwidth
    · rw [hrest, List.take_append_of_le_length hwidth]
    · rw [hrest, List.append_nil]
  unfold Scanner.emitLexeme
  change Alike back _ (.emit ⟨_, String.ofList (lexeme.contents.getD (front.take lexeme.width)),
    ⟨_, ((s.cursor.facing front).skip lexeme.width).offset⟩, _⟩
    { s.excerpt front levels [] with
      cursor := (s.cursor.facing front).skip lexeme.width
      groups := _
      lineHasToken := _
      afterValue := _ })
  rw [htake, hskip']
  refine .emit _ ⟨⟨front.drop lexeme.width, levels, [], hskip, rfl⟩, ?_, fun hagain => ?_,
    fun hline => Bool.noConfusion hline⟩
  · simp [howed, excerpt]
  · rw [hstart] at hagain
    contradiction

theorem breakLine {front : List Char} {levels : List Nat}
    (h : Excerpt back s (s.excerpt ('\n' :: front) levels [])) (howed : s.owed = [])
    (hrest : s.cursor.rest = '\n' :: front ++ back) :
    Alike back s.breakLine (s.excerpt ('\n' :: front) levels []).breakLine := by
  have hnext : s.cursor.next.rest = front ++ back := by rw [Cursor.rest_next, hrest]; rfl
  have hcursor : (s.excerpt ('\n' :: front) levels []).cursor.next = s.cursor.next.facing front :=
    Cursor.next_facing hrest front
  have hnone : ∀ kind ∈ s.owed ++ [], s.lineHasToken = false ∧ kind.isLayout = true := by
    simp [howed]
  unfold Scanner.breakLine
  rw [hcursor]
  change Alike back _ (if 0 < s.groups then _ else if s.lineHasToken then _ else _)
  dsimp only
  split
  next => exact .skip ⟨⟨front, levels, [], hnext, rfl⟩, hnone, h.begins, h.value⟩
  next hgroups =>
  have hgroups := Nat.eq_zero_of_not_pos hgroups
  split
  next =>
    refine .emit _ ⟨⟨front, levels, [], hnext, rfl⟩, ?_, fun _ => ⟨rfl, hgroups⟩, fun _ => rfl⟩
    simp [howed, excerpt]
  next hline =>
    have hline := eq_false_of_ne_true hline
    exact .skip ⟨⟨front, levels, [], hnext, rfl⟩, hnone, fun _ => ⟨hline, hgroups⟩, h.value⟩

/-- Within a line, a step that stays in front of the place is a step of both scanners.  A hash sign
right in front of it would be a comment in the excerpt. -/
theorem within (h : Excerpt back s s') (howed : s.owed = []) (howed' : s'.owed = [])
    (hstart : s.atLineStart = false) (hlong : back.length < s.cursor.rest.length)
    (hhash : s.cursor.rest ≠ '#' :: back)
    (hskip : ∀ next, s.step = .skip next → back.length < next.cursor.rest.length)
    (hemit : ∀ token next, s.step = .emit token next → back.length ≤ next.cursor.rest.length) :
    Alike back s.step s'.step := by
  obtain ⟨text, levels, owed, hrest, rfl⟩ := h.reads
  obtain rfl : owed = [] := howed'
  obtain _ | ⟨c, front⟩ := text
  · rw [hrest] at hlong
    exact absurd hlong (Nat.lt_irrefl _)
  have hsplit : s.cursor.rest = c :: (front ++ back) := hrest
  have hsplit' : (s.excerpt (c :: front) levels []).cursor.rest = c :: front := rfl
  have hstart' : (s.excerpt (c :: front) levels []).atLineStart = false := hstart
  have hinside {width : Nat} (hlength : back.length ≤ (s.cursor.skip width).rest.length) :
      width ≤ (c :: front).length ∨ back = [] := by
    rw [Cursor.rest_skip, hsplit] at hlength
    rw [← List.length_eq_zero_iff]
    simp only [List.length_drop, List.length_cons, List.length_append] at hlength ⊢
    omega
  have htrivia : Lexeme.triviaWidth s.lineHasToken (c :: (front ++ back)) =
      Lexeme.triviaWidth s.lineHasToken (c :: front) := by
    refine Lexeme.triviaWidth_cutoff ?_ ?_
    · obtain hzero | hpos := Nat.eq_zero_or_pos
        (Lexeme.triviaWidth s.lineHasToken (c :: (front ++ back)))
      · omega
      · have hlength := hskip _ (step_of_trivia howed hstart hsplit hpos)
        rw [Cursor.rest_skip, hsplit] at hlength
        simp only [List.length_drop, List.length_cons, List.length_append] at hlength
        omega
    · rintro rfl rfl
      exact hhash hsplit
  obtain hzero | hpos := Nat.eq_zero_or_pos
    (Lexeme.triviaWidth s.lineHasToken (c :: (front ++ back)))
  · have hzero' := htrivia ▸ hzero
    by_cases hbreak : c = '\n'
    · subst hbreak
      rw [step_of_break howed hstart hsplit, step_of_break rfl hstart' hsplit']
      exact h.breakLine howed hrest
    have hfits {lexeme : Lexeme}
        (hlexeme : Lexeme.scan s.afterValue c (front ++ back) = some lexeme) :=
      hinside (hemit _ _ (step_of_lexeme howed hstart hsplit hzero hbreak hlexeme))
    have hscan : Lexeme.scan s.afterValue c (front ++ back) = Lexeme.scan s.afterValue c front := by
      by_cases hback : back = []
      · rw [hback, List.append_nil]
      · exact Lexeme.scan_cutoff fun lexeme hlexeme => (hfits hlexeme).resolve_right hback
    cases hlexeme : Lexeme.scan s.afterValue c (front ++ back) with
    | none =>
        rw [step_of_ignored howed hstart hsplit hzero hbreak hlexeme,
          step_of_ignored rfl hstart' hsplit' hzero' hbreak (hscan ▸ hlexeme)]
        have hone : 1 ≤ (c :: front).length := Nat.succ_le_succ (Nat.zero_le _)
        exact .skip (h.skipped hrest (.inl hone))
    | some lexeme =>
        rw [step_of_lexeme howed hstart hsplit hzero hbreak hlexeme,
          step_of_lexeme rfl hstart' hsplit' hzero' hbreak (hscan ▸ hlexeme)]
        exact emitLexeme howed hstart hrest (hfits hlexeme) levels
  · have hstep := step_of_trivia howed hstart hsplit hpos
    rw [hstep, step_of_trivia rfl hstart' hsplit' (htrivia ▸ hpos)]
    change Alike back _ (.skip { s.excerpt (c :: front) levels [] with
      cursor := (s.cursor.facing (c :: front)).skip
        (Lexeme.triviaWidth s.lineHasToken (c :: front)) })
    rw [← htrivia]
    exact .skip (h.skipped hrest (hinside (Nat.le_of_lt (hskip _ hstep))))

theorem step (h : Excerpt back s s') (howed : s.owed = []) (howed' : s'.owed = [])
    (hlong : back.length < s.cursor.rest.length)
    (hstays : ∀ next ∈ s.step.next?, back.length < next.cursor.rest.length) :
    Alike back s.step s'.step := by
  cases hstart : s.atLineStart with
  | true =>
      obtain ⟨-, hgroups⟩ := h.begins hstart
      have hstep := step_of_lineStart howed hstart hgroups
      obtain ⟨hstart', hgroups'⟩ := h.lineStart
      rw [hstep, step_of_lineStart howed' (hstart'.trans hstart) (hgroups'.trans hgroups)]
      exact .skip (h.startLine howed howed' hstart (hstays _ (by rw [hstep]; rfl)))
  | false =>
      have hrest : s.cursor.rest ≠ [] := by
        rintro hnil
        rw [hnil] at hlong
        contradiction
      refine h.within howed howed' hstart hlong (fun hhash => ?_) (fun next hstep => ?_)
        fun token next hstep => Nat.le_of_lt ?_
      · obtain ⟨next, hnext⟩ := exists_next_of_rest hrest
        have hless := rest_lt_of_step howed hstart hrest hnext
        have hstays := hstays next hnext
        rw [hhash, List.length_cons] at hless
        omega
      · exact hstays next (by rw [hstep]; rfl)
      · exact hstays next (by rw [hstep]; rfl)

/-! ## Runs up to the end of an excerpt -/

/-- Both scanners come to places in front of the end with the same tokens, but for layout. -/
theorem run (hrun : Emits s tokens last) (h : Excerpt back s s')
    (hlast : back.length < last.cursor.rest.length) :
    ∃ tokens' last', Emits s' tokens' last' ∧
      tokens'.filter Token.isPlain = tokens.filter Token.isPlain ∧ Excerpt back last last' := by
  induction hrun generalizing s' with
  | refl s => exact ⟨[], s', .refl s', rfl, h⟩
  | @skip s next last tokens hstep hrun ih =>
      have hnext := Nat.lt_of_lt_of_le hlast hrun.length_le
      have hlong := Nat.lt_of_lt_of_le hlast (Emits.skip hstep hrun).length_le
      have howed := owed_of_skip hstep
      obtain ⟨marks, settled, hmarks, hlayout, hsettled, h⟩ := h.settle
      have halike := h.step howed hsettled hlong (by
        rw [hstep]
        rintro _ ⟨⟩
        exact hnext)
      generalize hstep' : settled.step = step' at halike
      rw [hstep] at halike
      cases halike with
      | skip hexcerpt =>
          obtain ⟨tokens', last', hrun', hplain, hfinal⟩ := ih hexcerpt hlast
          refine ⟨marks ++ tokens', last', hmarks.append (.skip hstep' hrun'), ?_, hfinal⟩
          rw [List.filter_append, Token.filter_isPlain_of_layout hlayout, hplain, List.nil_append]
  | @emit s next last token tokens hstep hrun ih =>
      have hnext := Nat.lt_of_lt_of_le hlast hrun.length_le
      have hlong := Nat.lt_of_lt_of_le hlast (Emits.emit hstep hrun).length_le
      cases howed : s.owed with
      | cons kind owed =>
          obtain ⟨-, hkind⟩ := h.owed kind (by simp [howed])
          have hpaid := step_of_owed howed
          rw [hstep, Step.emit.injEq] at hpaid
          obtain ⟨rfl, rfl⟩ := hpaid
          obtain ⟨tokens', last', hrun', hplain, hfinal⟩ := ih (h.pay howed) hlast
          refine ⟨tokens', last', hrun', ?_, hfinal⟩
          rw [hplain, List.filter_cons_of_neg]
          exact Bool.eq_false_iff.mp (Token.isPlain_of_layout hkind)
      | nil =>
          obtain ⟨marks, settled, hmarks, hlayout, hsettled, h⟩ := h.settle
          have halike := h.step howed hsettled hlong (by
            rw [hstep]
            rintro _ ⟨⟩
            exact hnext)
          generalize hstep' : settled.step = step' at halike
          rw [hstep] at halike
          cases halike with
          | emit _ hexcerpt =>
              obtain ⟨tokens', last', hrun', hplain, hfinal⟩ := ih hexcerpt hlast
              refine ⟨marks ++ token :: tokens', last', hmarks.append (.emit hstep' hrun'), ?_,
                hfinal⟩
              rw [List.filter_append, Token.filter_isPlain_of_layout hlayout, List.nil_append,
                List.filter_cons, List.filter_cons, hplain]

/-- At the end of an excerpt nothing but layout is left. -/
theorem tokens_of_end (h : Excerpt back s s') (hrest : s.cursor.rest = back) :
    s'.tokens.filter Token.isPlain = [] := by
  obtain ⟨front, levels, owed, hsplit, rfl⟩ := h.reads
  rw [hrest] at hsplit
  obtain rfl : front = [] := List.append_left_eq_self.mp hsplit.symm
  have hend := Scanner.tokens_of_end (s := s.excerpt [] levels owed) rfl fun kind hmem =>
    (h.owed kind (List.mem_append_right _ hmem)).2
  rw [List.filter_eq_nil_iff]
  intro token hmem
  obtain hlayout | heof := hend token hmem
  · exact Bool.eq_false_iff.mp (Token.isPlain_of_layout hlayout)
  · simp [Token.isPlain, heof]

/-- The tokens of an excerpt that ends behind a token which is no layout. -/
theorem tokens_eq (h : Excerpt back s s') (hrun : Emits s tokens last)
    (hstep : last.step = .emit token next) (hlayout : token.kind.isLayout = false)
    (hlong : back.length < last.cursor.rest.length) (hback : next.cursor.rest = back)
    (hhash : last.cursor.rest ≠ '#' :: back) :
    s'.tokens.filter Token.isPlain = (tokens ++ [token]).filter Token.isPlain := by
  obtain ⟨tokens', last', hrun', hplain, h⟩ := run hrun h hlong
  have howed : last.owed = [] := by
    have hmoves := hstep ▸ moves_step last
    cases hmoves with
    | owed howed =>
        obtain ⟨-, hkind⟩ := h.owed _ (List.mem_append_left _ (howed ▸ List.mem_cons_self))
        exact absurd hkind (Bool.eq_false_iff.mp hlayout)
    | endLine howed | endLevel howed | breakLine howed | lexeme howed => exact howed
  obtain ⟨marks, settled, hmarks, hmark, hsettled, h⟩ := h.settle
  have hstart : last.atLineStart = false := by
    refine eq_false_of_ne_true fun hstart => ?_
    rw [step_of_lineStart howed hstart (h.begins hstart).2] at hstep
    contradiction
  have halike := h.within howed hsettled hstart hlong hhash
    (fun other hother => by
      rw [hstep] at hother
      contradiction)
    (fun other after hother => by
      rw [hstep, Step.emit.injEq] at hother
      rw [← hother.2, hback])
  generalize hstep' : settled.step = step' at halike
  rw [hstep] at halike
  cases halike with
  | emit _ hend =>
      have htail := hend.tokens_of_end hback
      rw [(hrun'.append hmarks).tokens_eq, tokens_of_emit hstep', List.filter_append,
        List.filter_append, List.filter_append, hplain, Token.filter_isPlain_of_layout hmark,
        List.append_nil, List.filter_cons, List.filter_cons, htail, List.filter_nil]

end Excerpt

end Scanner
end SceneLang
