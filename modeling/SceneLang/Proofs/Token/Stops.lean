import SceneLang.Proofs.Token.Breaks

/-!
# Texts that stop at their end

A text stops at its end if none of its tokens and comments goes on over a line break behind it.
The scanner then comes to its end in the same way whatever stands behind that line break.
-/

namespace SceneLang

variable {front back rest : List Char}

namespace Cursor

/-- The cursor in front of another text. -/
def facing (cursor : Cursor) (text : List Char) : Cursor :=
  { cursor with rest := text }

theorem next_facing {cursor : Cursor} {c : Char} {others : List Char}
    (hrest : cursor.rest = c :: others) (text : List Char) :
    (cursor.facing (c :: text)).next = cursor.next.facing text := by
  obtain ⟨_, offset, position⟩ := cursor
  subst hrest
  rfl

/-- What the cursor skips tells where it comes to. -/
theorem skip_facing {cursor : Cursor} {width : Nat} (hrest : cursor.rest = front ++ rest)
    (hwidth : width ≤ front.length) (back : List Char) :
    (cursor.facing (front ++ back)).skip width =
      (cursor.skip width).facing (front.drop width ++ back) := by
  induction width generalizing cursor front with
  | zero => rfl
  | succ width ih =>
      cases front with
      | nil => exact absurd hwidth (Nat.not_succ_le_zero _)
      | cons c front =>
          have hnext : cursor.next.rest = front ++ rest := by rw [rest_next, hrest]; rfl
          rw [skip, skip, List.cons_append, next_facing hrest]
          exact ih hnext (Nat.le_of_succ_le_succ hwidth)

theorem rest_skip_of_le {cursor : Cursor} {width : Nat} (hrest : cursor.rest = front ++ rest)
    (hwidth : width ≤ front.length) : (cursor.skip width).rest = front.drop width ++ rest := by
  rw [rest_skip, hrest, List.drop_append_of_le_length hwidth]

end Cursor

namespace Scanner

/-! ## The head of a line -/

theorem indentation_append (h : Breaks back) (front : List Char) :
    indentation (front ++ back) = indentation front := by
  induction front with
  | nil =>
      obtain rfl | ⟨rest, rfl⟩ := h.cases
      · rfl
      · rfl
  | cons c front ih => rw [List.cons_append, indentation, indentation, ih]

theorem lineHead_append (h : Breaks back)
    (hwidth : (lineHead (front ++ '\n' :: rest)).1 ≤ front.length) :
    lineHead (front ++ back) = lineHead (front ++ '\n' :: rest) := by
  have hrest := breaks_cons rest
  have hblank : Lexeme.isInlineBlank '\n' = false := rfl
  have hle : (front.takeWhile Lexeme.isInlineBlank).length ≤ front.length :=
    (List.takeWhile_prefix _).length_le
  unfold lineHead at hwidth ⊢
  simp only [h.takeWhile_append hblank, hrest.takeWhile_append hblank,
    List.drop_append_of_le_length hle] at hwidth ⊢
  have hlength := List.length_drop (i := (front.takeWhile Lexeme.isInlineBlank).length) (l := front)
  generalize (front.takeWhile Lexeme.isInlineBlank).length = blanks at *
  generalize front.drop blanks = tail at *
  obtain _ | ⟨c, tail⟩ := tail
  · obtain rfl | ⟨rest, rfl⟩ := h.cases <;> rfl
  by_cases hbreak : c = '\n'
  · subst hbreak
    rfl
  by_cases hhash : c = '#'
  · subst hhash
    simp only [List.cons_append, Lexeme.lineWidth_append h, Lexeme.lineWidth_append hrest]
  by_cases hslash : c = '/'
  · subst hslash
    obtain _ | ⟨d, tail⟩ := tail
    · obtain rfl | ⟨rest, rfl⟩ := h.cases <;> rfl
    by_cases hline : d = '/'
    · subst hline
      simp only [List.cons_append, Lexeme.lineWidth_append h, Lexeme.lineWidth_append hrest]
    by_cases hblock : d = '*'
    · subst hblock
      simp only [List.cons_append, List.length_cons] at hwidth hlength ⊢
      have hinside : Lexeme.blockWidth (tail ++ '\n' :: rest) ≤ tail.length := by omega
      rw [Lexeme.blockWidth_append h hinside]
      generalize Lexeme.blockWidth (tail ++ '\n' :: rest) = width at *
      have hmore : ((tail.drop width).takeWhile Lexeme.isInlineBlank).length ≤
          (tail.drop width).length :=
        (List.takeWhile_prefix _).length_le
      simp only [List.drop_append_of_le_length hinside, h.takeWhile_append hblank,
        hrest.takeWhile_append hblank, List.drop_append_of_le_length hmore, h.ends_append,
        hrest.ends_append]
    · simp [hline, hblock]
  · simp [hbreak, hhash, hslash]

/-! ## Steps in front of a line break -/

variable {s next last : Scanner} {token : Token} {tokens : List Token}

/-- The scanner in front of another text. -/
def facing (s : Scanner) (text : List Char) : Scanner :=
  { s with cursor := s.cursor.facing text }

/-- The scanners stand in front of the same text up to a line break behind it, or what stands
behind it instead. -/
def Beside (rest back : List Char) (s s' : Scanner) : Prop :=
  ∃ front, s.cursor.rest = front ++ '\n' :: rest ∧ s' = s.facing (front ++ back)

namespace Step

/-- The state behind a step, if there is one. -/
def next? : Step → Option Scanner
  | .emit _ next | .skip next => some next
  | .finish _ => none

/-- The step in front of another text. -/
def facing (text : List Char) : Step → Step
  | .emit token next => .emit token (next.facing text)
  | .skip next => .skip (next.facing text)
  | .finish token => .finish token

end Step

/-- The steps lead to scanners side by side. -/
def Abreast (rest back : List Char) (step step' : Step) : Prop :=
  ∃ front, (∀ next ∈ step.next?, next.cursor.rest = front ++ '\n' :: rest) ∧
    step' = step.facing (front ++ back)

theorem Beside.skip {next' : Scanner} (h : Beside rest back next next') :
    Abreast rest back (.skip next) (.skip next') := by
  obtain ⟨front, hrest, rfl⟩ := h
  refine ⟨front, ?_, rfl⟩
  rintro _ ⟨⟩
  exact hrest

theorem Beside.emit {next' : Scanner} (h : Beside rest back next next') (token : Token) :
    Abreast rest back (.emit token next) (.emit token next') := by
  obtain ⟨front, hrest, rfl⟩ := h
  refine ⟨front, ?_, rfl⟩
  rintro _ ⟨⟩
  exact hrest

theorem startLine_facing (h : Breaks back) (hrest : s.cursor.rest = front ++ '\n' :: rest)
    (hwidth : (lineHead s.cursor.rest).1 ≤ front.length) :
    Beside rest back s.startLine (s.facing (front ++ back)).startLine := by
  have hskip := Cursor.skip_facing hrest hwidth back
  have hhead : lineHead (front ++ back) = lineHead s.cursor.rest := by
    rw [hrest] at hwidth ⊢
    exact lineHead_append h hwidth
  have hindentation : indentation (front ++ back) = indentation s.cursor.rest := by
    rw [hrest, indentation_append h, indentation_append (breaks_cons rest)]
  refine ⟨front.drop (lineHead s.cursor.rest).1, ?_, ?_⟩
  · rw [cursor_startLine, Cursor.rest_skip_of_le hrest hwidth]
  · unfold startLine
    have hfacing : (s.facing (front ++ back)).cursor.rest = front ++ back := rfl
    rw [hfacing, hhead, hindentation]
    dsimp only
    rw [show (s.facing (front ++ back)).cursor = s.cursor.facing (front ++ back) from rfl, hskip]
    split <;> rfl

theorem breakLine_facing (hrest : s.cursor.rest = '\n' :: (front ++ '\n' :: rest))
    (back : List Char) :
    Abreast rest back s.breakLine (s.facing ('\n' :: (front ++ back))).breakLine := by
  have hnext := Cursor.next_facing hrest (front ++ back)
  have hfront : s.cursor.next.rest = front ++ '\n' :: rest := by
    rw [Cursor.rest_next, hrest, List.tail_cons]
  have hcursor : (s.facing ('\n' :: (front ++ back))).cursor =
      s.cursor.facing ('\n' :: (front ++ back)) := rfl
  have hgroups : (s.facing ('\n' :: (front ++ back))).groups = s.groups := rfl
  have hline : (s.facing ('\n' :: (front ++ back))).lineHasToken = s.lineHasToken := rfl
  unfold breakLine
  rw [hcursor, hnext, hgroups, hline]
  dsimp only
  split
  · exact Beside.skip ⟨front, hfront, rfl⟩
  split
  · exact Beside.emit ⟨front, hfront, rfl⟩ _
  · exact Beside.skip ⟨front, hfront, rfl⟩

theorem emitLexeme_facing {lexeme : Lexeme} (hrest : s.cursor.rest = front ++ '\n' :: rest)
    (hwidth : lexeme.width ≤ front.length) (back : List Char) :
    Abreast rest back (s.emitLexeme lexeme) ((s.facing (front ++ back)).emitLexeme lexeme) := by
  have hcursor : (s.facing (front ++ back)).cursor = s.cursor.facing (front ++ back) := rfl
  have htake : (front ++ back).take lexeme.width = s.cursor.rest.take lexeme.width := by
    rw [hrest, List.take_append_of_le_length hwidth, List.take_append_of_le_length hwidth]
  unfold emitLexeme
  rw [hcursor, Cursor.skip_facing hrest hwidth]
  change Abreast rest back _ (.emit ⟨_, String.ofList
    (lexeme.contents.getD ((front ++ back).take lexeme.width)), _, _⟩ _)
  rw [htake]
  exact Beside.emit ⟨_, Cursor.rest_skip_of_le hrest hwidth, rfl⟩ _

/-- A step that does not go beyond a line break is the same whatever stands behind instead. -/
theorem step_facing (h : Breaks back) (hfront : front ≠ [])
    (hrest : s.cursor.rest = front ++ '\n' :: rest)
    (hstays : ∀ next ∈ s.step.next?, rest.length < next.cursor.rest.length) :
    Abreast rest back s.step (s.facing (front ++ back)).step := by
  obtain ⟨c, front, rfl⟩ := List.exists_cons_of_ne_nil hfront
  have hinside {width : Nat}
      (hlength : rest.length < (s.cursor.rest.drop width).length) :
      width ≤ (c :: front).length := by
    simp only [hrest, List.length_drop, List.length_append, List.length_cons] at hlength ⊢
    omega
  have hcursor : (s.facing (c :: front ++ back)).cursor = s.cursor.facing (c :: front ++ back) :=
    rfl
  have hfields : (s.facing (c :: front ++ back)).owed = s.owed ∧
      (s.facing (c :: front ++ back)).atLineStart = s.atLineStart ∧
      (s.facing (c :: front ++ back)).groups = s.groups ∧
      (s.facing (c :: front ++ back)).lineHasToken = s.lineHasToken ∧
      (s.facing (c :: front ++ back)).afterValue = s.afterValue := ⟨rfl, rfl, rfl, rfl, rfl⟩
  obtain ⟨howed, hstart, hgroups, hline, hvalue⟩ := hfields
  unfold step at hstays ⊢
  rw [howed, hstart, hgroups, hline, hvalue]
  cases howing : s.owed with
  | cons kind owed =>
      have hbeside : Beside rest back { s with owed := owed, afterValue := false }
          { s.facing (c :: front ++ back) with owed := owed, afterValue := false } :=
        ⟨c :: front, hrest, rfl⟩
      exact hbeside.emit (s.mark kind)
  | nil =>
  rw [howing] at hstays
  dsimp only at hstays ⊢
  split
  next hatStart =>
    rw [if_pos hatStart] at hstays
    have hlength := hstays _ rfl
    rw [cursor_startLine, Cursor.rest_skip] at hlength
    exact (startLine_facing h hrest (hinside hlength)).skip
  next hatStart =>
  rw [if_neg hatStart] at hstays
  have hsplit : s.cursor.rest = c :: (front ++ '\n' :: rest) := hrest
  have hfacing : (s.facing (c :: front ++ back)).cursor.rest = c :: (front ++ back) := rfl
  rw [hsplit] at hstays
  rw [hsplit, hfacing]
  dsimp only at hstays ⊢
  have htrivia : Lexeme.triviaWidth s.lineHasToken (c :: (front ++ '\n' :: rest)) ≤
      front.length + 1 := by
    split at hstays
    next hpos =>
      have hlength := hstays _ rfl
      rw [Cursor.rest_skip] at hlength
      exact hinside hlength
    next hzero => omega
  rw [Lexeme.triviaWidth_append h htrivia]
  split
  next hpos =>
    rw [hcursor, Cursor.skip_facing hrest htrivia]
    exact Beside.skip ⟨_, Cursor.rest_skip_of_le hrest htrivia, rfl⟩
  next hzero =>
  rw [if_neg hzero] at hstays
  split
  next hbreak =>
    subst hbreak
    exact breakLine_facing hsplit back
  next hbreak =>
  rw [if_neg hbreak] at hstays
  have hscan : Lexeme.scan s.afterValue c (front ++ back) =
      Lexeme.scan s.afterValue c (front ++ '\n' :: rest) := by
    refine Lexeme.scan_append h fun lexeme hlexeme => ?_
    rw [hlexeme] at hstays
    have hlength := hstays _ rfl
    rw [Cursor.rest_skip] at hlength
    exact hinside hlength
  rw [hscan]
  cases hlexeme : Lexeme.scan s.afterValue c (front ++ '\n' :: rest) with
  | none =>
      have hnext : (s.cursor.facing (c :: front ++ back)).next =
          s.cursor.next.facing (front ++ back) :=
        Cursor.next_facing hsplit (front ++ back)
      dsimp only
      rw [hcursor, hnext]
      exact Beside.skip ⟨front, by rw [Cursor.rest_next, hsplit, List.tail_cons], rfl⟩
  | some lexeme =>
      rw [hlexeme] at hstays
      have hlength := hstays _ rfl
      rw [Cursor.rest_skip] at hlength
      exact emitLexeme_facing hrest (hinside hlength) back

/-! ## Runs up to a line break -/

theorem Emits.length_le (h : Emits s tokens last) :
    last.cursor.rest.length ≤ s.cursor.rest.length := by
  have hskip {cursor : Cursor} (width : Nat) :
      (cursor.skip width).rest.length ≤ cursor.rest.length := by
    rw [Cursor.rest_skip, List.length_drop]
    exact Nat.sub_le _ _
  induction h with
  | refl => exact Nat.le_refl _
  | skip hstep _ ih =>
      obtain ⟨width, hcursor⟩ := cursor_of_skip hstep
      exact Nat.le_trans (hcursor ▸ ih) (hskip width)
  | emit hstep _ ih =>
      obtain ⟨width, hcursor⟩ := cursor_of_emit hstep
      exact Nat.le_trans (hcursor ▸ ih) (hskip width)

/-- The step leads to the same place whatever stands behind instead of a line break. -/
theorem exists_step_facing (hfront : front ≠ []) (hrest : s.cursor.rest = front ++ '\n' :: rest)
    (hstays : ∀ next ∈ s.step.next?, rest.length < next.cursor.rest.length) :
    ∃ front', (∀ next ∈ s.step.next?, next.cursor.rest = front' ++ '\n' :: rest) ∧
      ∀ back, Breaks back → (s.facing (front ++ back)).step = s.step.facing (front' ++ back) := by
  obtain ⟨front', hfront', hself⟩ := step_facing (breaks_cons rest) hfront hrest hstays
  refine ⟨front', hfront', fun back h => ?_⟩
  obtain ⟨other, hother, hstep⟩ := step_facing h hfront hrest hstays
  rw [hstep]
  cases hnext : s.step with
  | finish token => rfl
  | emit token next | skip next =>
      rw [hnext] at hfront' hother
      have hsame := (hfront' next rfl).symm.trans (hother next rfl)
      rw [List.append_cancel_right hsame]

/-- A run that comes to a line break comes there the same way whatever stands behind instead. -/
theorem Emits.exists_facing (h : Emits s tokens last) (hlast : last.cursor.rest = '\n' :: rest)
    (hrest : s.cursor.rest = front ++ '\n' :: rest) :
    ∃ tokens, ∃ stop : Scanner, stop.cursor.rest = '\n' :: rest ∧
      ∀ back, Breaks back → Emits (s.facing (front ++ back)) tokens (stop.facing back) := by
  -- The run ends where the line break is met first, be it before or at the end of the given one.
  induction h generalizing front with
  | refl s =>
      have hfront : front = [] := by
        rw [hlast] at hrest
        exact List.append_left_eq_self.mp hrest.symm
      subst hfront
      exact ⟨[], s, hlast, fun back _ => .refl _⟩
  | @skip s next last tokens hstep hrun ih =>
      by_cases hfront : front = []
      · subst hfront
        exact ⟨[], s, hrest, fun back _ => .refl _⟩
      have hlength := hrun.length_le
      rw [hlast] at hlength
      obtain ⟨front', hnext, hfacing⟩ := exists_step_facing hfront hrest (by
        rw [hstep]
        rintro _ ⟨⟩
        exact hlength)
      rw [hstep] at hnext hfacing
      obtain ⟨tokens, stop, hstop, hruns⟩ := ih hlast (hnext next rfl)
      exact ⟨tokens, stop, hstop, fun back h => .skip (hfacing back h) (hruns back h)⟩
  | @emit s next last token tokens hstep hrun ih =>
      by_cases hfront : front = []
      · subst hfront
        exact ⟨[], s, hrest, fun back _ => .refl _⟩
      have hlength := hrun.length_le
      rw [hlast] at hlength
      obtain ⟨front', hnext, hfacing⟩ := exists_step_facing hfront hrest (by
        rw [hstep]
        rintro _ ⟨⟩
        exact hlength)
      rw [hstep] at hnext hfacing
      obtain ⟨tokens, stop, hstop, hruns⟩ := ih hlast (hnext next rfl)
      exact ⟨token :: tokens, stop, hstop, fun back h => .emit (hfacing back h) (hruns back h)⟩

/-- Does the scanner come to a place with so many characters left? -/
def restsAt (count : Nat) (s : Scanner) : Bool :=
  if s.cursor.rest.length = count then true
  else
    match _hstep : s.step with
    | .emit _ next | .skip next => next.restsAt count
    | .finish _ => false
termination_by s.measure
decreasing_by
  · exact measure_emit _hstep
  · exact measure_skip _hstep

theorem restsAt_of_step {count : Nat} (hlength : s.cursor.rest.length ≠ count)
    (hnext : s.step.next? = some next) : s.restsAt count = next.restsAt count := by
  rw [restsAt, if_neg hlength]
  split <;> simp_all [Step.next?]

theorem restsAt_iff {count : Nat} :
    s.restsAt count = true ↔
      ∃ tokens last, Emits s tokens last ∧ last.cursor.rest.length = count := by
  constructor
  · intro h
    induction s using restsAt.induct count with
    | case1 s hlength => exact ⟨[], s, .refl s, hlength⟩
    | case2 s hlength token next hstep ih =>
        rw [restsAt_of_step hlength (by rw [hstep]; rfl)] at h
        obtain ⟨tokens, last, hrun, hlast⟩ := ih h
        exact ⟨token :: tokens, last, .emit hstep hrun, hlast⟩
    | case3 s hlength next hstep ih =>
        rw [restsAt_of_step hlength (by rw [hstep]; rfl)] at h
        obtain ⟨tokens, last, hrun, hlast⟩ := ih h
        exact ⟨tokens, last, .skip hstep hrun, hlast⟩
    | case4 s hlength token hstep =>
        rw [restsAt, if_neg hlength] at h
        split at h <;> simp_all
  · rintro ⟨tokens, last, hrun, hlast⟩
    induction hrun with
    | refl s => rw [restsAt, if_pos hlast]
    | @skip s next last tokens hstep _ ih =>
        by_cases hlength : s.cursor.rest.length = count
        · rw [restsAt, if_pos hlength]
        · rw [restsAt_of_step hlength (by rw [hstep]; rfl)]
          exact ih hlast
    | @emit s next last token tokens hstep _ ih =>
        by_cases hlength : s.cursor.rest.length = count
        · rw [restsAt, if_pos hlength]
        · rw [restsAt_of_step hlength (by rw [hstep]; rfl)]
          exact ih hlast

end Scanner

/-- No token and no comment of the text goes on over a line break behind it. -/
def Stops (text : List Char) : Prop :=
  ∃ tokens last, Scanner.Emits (.ofText (text ++ ['\n'])) tokens last ∧ last.cursor.rest = ['\n']

theorem stops_iff {text : List Char} :
    Stops text ↔ (Scanner.ofText (text ++ ['\n'])).restsAt 1 = true := by
  rw [Scanner.restsAt_iff]
  constructor
  · rintro ⟨tokens, last, hrun, hlast⟩
    exact ⟨tokens, last, hrun, congrArg List.length hlast⟩
  · rintro ⟨tokens, last, hrun, hlength⟩
    refine ⟨tokens, last, hrun, ?_⟩
    obtain ⟨c, hrest⟩ := List.length_eq_one_iff.mp hlength
    obtain ⟨front, rest, htext, hcursor⟩ := hrun.in
    rw [hcursor, Cursor.rest_behind] at hrest
    subst hrest
    rw [hcursor, Cursor.rest_behind, (List.append_inj' htext rfl).2]

instance (text : List Char) : Decidable (Stops text) :=
  decidable_of_iff _ stops_iff.symm

/-- The end of a text that stops there is met in the same way whatever stands behind it. -/
theorem Stops.exists_emits {text : List Char} (h : Stops text) :
    ∃ tokens, ∃ stop : Scanner, ∀ back, Breaks back →
      Scanner.Emits (.ofText (text ++ back)) tokens (stop.facing back) := by
  obtain ⟨tokens, last, hrun, hlast⟩ := h
  obtain ⟨tokens, stop, _, hruns⟩ := hrun.exists_facing hlast rfl
  exact ⟨tokens, stop, hruns⟩

example : Stops "a: \"b".toList ∧ ¬Stops "a: $\x7bb".toList := by decide +kernel

end SceneLang
