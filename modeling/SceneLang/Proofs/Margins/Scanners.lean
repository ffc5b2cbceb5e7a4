import SceneLang.Proofs.Margins.Layout

/-!
# Scanners side by side

Side by side, two scanners emit the same tokens but for layout: what the margins of a line ask
for differs on the two sides.  Within braces that layout is hidden.  Outside of them the levels
that are open can still be those that were opened within, so that the same layout tokens at the
same places are asked of the two texts there.
-/

namespace SceneLang

open SceneLang.Parser (depthAfter)
open Text (isMargin ink Aligned Corresponds byteLength)

namespace Scanner

variable {source other : List Char} {s s' next : Scanner} {count depth width : Nat}
  {token : Token}

/-- Is the scanner in front of a line break that is within braces, with so many characters? -/
abbrev Within (depth : Nat) (s : Scanner) (count : Nat) : Prop :=
  s.breaksWithin count depth = true

theorem not_within (depth : Nat) {c : Char} {rest : List Char} (hrest : s.cursor.rest = c :: rest)
    (hplain : c ≠ '\n' ∨ s.groups ≠ 0) : ¬Within depth s s.cursor.rest.length := by
  intro hwithin
  rw [Within, breaksWithin_of_length rfl, hrest] at hwithin
  simp only [List.head?_cons, Option.some.injEq, Bool.and_eq_true, decide_eq_true_eq] at hwithin
  obtain hbreak | hgroups := hplain
  · exact hbreak hwithin.1.1
  · exact hgroups hwithin.1.2

section

variable (next : Scanner) (hcursor : next.cursor = s.cursor.skip width)
include hcursor

theorem length_skip_lt {c : Char} {rest : List Char} (hwidth : 0 < width)
    (hrest : s.cursor.rest = c :: rest) :
    next.cursor.rest.length < s.cursor.rest.length := by
  rw [hcursor, Cursor.rest_skip, List.length_drop, hrest, List.length_cons]
  omega

/-- A step goes over no line break that another margin can stand behind. -/
theorem stays_of_next {depth' : Nat} (hfirst : ¬Within depth s s.cursor.rest.length)
    (hnext : ∀ count, s.cursor.rest.length ≠ count → Within depth s count →
      Within depth' next count) :
    Remargined.Stays (Within depth s) s.cursor.rest width := by
  intro count hcount hwithin
  by_cases hlength : s.cursor.rest.length = count
  · exact absurd (hlength ▸ hwithin) hfirst
  · obtain ⟨hpos, hle⟩ := bounds_of_breaksWithin (hnext count hlength hwithin)
    rw [hcursor, Cursor.rest_skip, List.length_drop] at hle
    omega

end

theorem Within.of_skip (hstep : s.step = .skip next) (count : Nat)
    (hlength : s.cursor.rest.length ≠ count) (h : Within depth s count) :
    Within depth next count := by
  rwa [Within, breaksWithin_of_skip hlength hstep] at h

theorem Within.of_emit (hstep : s.step = .emit token next) (count : Nat)
    (hlength : s.cursor.rest.length ≠ count) (h : Within depth s count) :
    Within (depthAfter depth token.kind) next count := by
  rwa [Within, breaksWithin_of_emit hlength hstep] at h

/-- The scanners are about to take the same steps, but for the margin of a line at its head. -/
structure Alongside (source other : List Char) (depth : Nat) (s s' : Scanner) : Prop where
  owed : s.owed = []
  owed' : s'.owed = []
  atLineStart : s.atLineStart = s'.atLineStart
  lineHasToken : s.lineHasToken = s'.lineHasToken
  groups : s.groups = s'.groups
  afterValue : s.afterValue = s'.afterValue
  begins : s.atLineStart = true → s.lineHasToken = false ∧ s.groups = 0
  value : s.lineHasToken = false → s.afterValue = false
  place : ∃ blanks blanks', blanks <+: s.cursor.rest ∧ blanks' <+: s'.cursor.rest ∧
    (∀ c ∈ blanks, isMargin c = true) ∧ (∀ c ∈ blanks', isMargin c = true) ∧
    (s.atLineStart = false → blanks = [] ∧ blanks' = []) ∧
    (s.cursor.skip blanks.length).Along source other (Within depth s)
      (s'.cursor.skip blanks'.length)

/-- The scanners take the same step; the flag says whether the line holds a token before it. -/
inductive Together (source other : List Char) (depth : Nat) (line : Bool) : Step → Step → Prop
  | skip {next next' : Scanner} (halongside : Alongside source other depth next next')
      (hline : next.lineHasToken = line) :
      Together source other depth line (.skip next) (.skip next')
  | emit {token token' : Token} {next next' : Scanner}
      (htwins : token.Twins (Corresponds source other) token') (heof : token'.kind ≠ .eof)
      (halongside : Alongside source other (depthAfter depth token'.kind) next next')
      (hline : next.lineHasToken = false → token'.kind.isLayout = true) :
      Together source other depth line (.emit token next) (.emit token' next')

namespace Alongside

theorem along (h : Alongside source other depth s s') (hstart : s.atLineStart = false) :
    s.cursor.Along source other (Within depth s) s'.cursor := by
  obtain ⟨blanks, blanks', -, -, -, -, hnone, halong⟩ := h.place
  obtain ⟨rfl, rfl⟩ := hnone hstart
  exact halong

theorem place_of_along
    (h : s.cursor.Along source other (Within depth s) s'.cursor) :
    ∃ blanks blanks', blanks <+: s.cursor.rest ∧ blanks' <+: s'.cursor.rest ∧
      (∀ c ∈ blanks, isMargin c = true) ∧ (∀ c ∈ blanks', isMargin c = true) ∧
      (s.atLineStart = false → blanks = [] ∧ blanks' = []) ∧
      (s.cursor.skip blanks.length).Along source other (Within depth s)
        (s'.cursor.skip blanks'.length) :=
  ⟨[], [], List.nil_prefix, List.nil_prefix, by simp, by simp, fun _ => ⟨rfl, rfl⟩, h⟩

section

variable {c : Char} {rest : List Char} (h : Alongside source other depth s s')
  (hstart : s.atLineStart = false) (hrest : s.cursor.rest = c :: rest)
include h hstart hrest

theorem exists_rest (hplain : c ≠ '\n' ∨ s.groups ≠ 0) :
    ∃ rest', s'.cursor.rest = c :: rest' ∧ Remargined (Within depth s) (c :: rest) (c :: rest') := by
  have hmargins := (h.along hstart).rest
  have hfirst := not_within depth hrest hplain
  rw [hrest] at hmargins hfirst
  obtain ⟨rest', hrest', -⟩ | ⟨-, hwithin, -⟩ := hmargins.cons
  · rw [hrest'] at hmargins
    exact ⟨rest', hrest', hmargins⟩
  · exact absurd hwithin hfirst

/-- What does not come to the end of a line is skipped on both sides. -/
theorem skip (hplain : c ≠ '\n' ∨ s.groups ≠ 0) (hwidth : 0 < width)
    (hstep : s.step = .skip { s with cursor := s.cursor.skip width })
    (hstep' : s'.step = .skip { s' with cursor := s'.cursor.skip width }) :
    Together source other depth s.lineHasToken s.step s'.step := by
  have hless := length_skip_lt { s with cursor := s.cursor.skip width } rfl hwidth hrest
  have halong := (h.along hstart).skip (stays_of_next
    { s with cursor := s.cursor.skip width } rfl (not_within depth hrest hplain)
    fun count => Within.of_skip hstep count)
  rw [hstep, hstep']
  exact .skip { h with
    place := place_of_along (halong.mono fun count hcount =>
      Within.of_skip hstep count (by dsimp only at hless; omega)) } rfl

theorem trivia (hwidth : 0 < Lexeme.triviaWidth s.lineHasToken (c :: rest)) :
    Together source other depth s.lineHasToken s.step s'.step := by
  have hbreak : c ≠ '\n' := by
    rintro rfl
    exact Nat.lt_irrefl 0 hwidth
  have hstep := step_of_trivia h.owed hstart hrest hwidth
  obtain ⟨rest', hrest', hmargins⟩ := exists_rest h hstart hrest (.inl hbreak)
  have hstays : Remargined.Stays (Within depth s) s.cursor.rest
      (Lexeme.triviaWidth s.lineHasToken (c :: rest)) :=
    stays_of_next { s with
      cursor := s.cursor.skip (Lexeme.triviaWidth s.lineHasToken (c :: rest)) } rfl
      (not_within depth hrest (.inl hbreak)) fun count => Within.of_skip hstep count
  rw [hrest] at hstays
  have heq := hmargins.triviaWidth_eq hstays
  refine skip h hstart hrest (.inl hbreak) hwidth hstep ?_
  rw [← heq, h.lineHasToken] at hwidth ⊢
  exact step_of_trivia h.owed' (h.atLineStart ▸ hstart) hrest' hwidth

/-- What can stand in the place of a lexeme. -/
theorem scan_eq (htrivia : Lexeme.triviaWidth s.lineHasToken (c :: rest) = 0) (hbreak : c ≠ '\n') :
    ∃ rest', s'.cursor.rest = c :: rest' ∧
      Lexeme.triviaWidth s'.lineHasToken (c :: rest') = 0 ∧
      Lexeme.scan s'.afterValue c rest' = Lexeme.scan s.afterValue c rest ∧
      ∀ lexeme, Lexeme.scan s.afterValue c rest = some lexeme →
        Remargined.Stays (Within depth s) s.cursor.rest lexeme.width := by
  obtain ⟨rest', hrest', hmargins⟩ := exists_rest h hstart hrest (.inl hbreak)
  have hstays (lexeme : Lexeme) (hscan : Lexeme.scan s.afterValue c rest = some lexeme) :
      Remargined.Stays (Within depth s) s.cursor.rest lexeme.width :=
    stays_of_next { s with
      cursor := s.cursor.skip lexeme.width
      groups := groupsAfter lexeme.kind s.groups
      lineHasToken := true
      afterValue := lexeme.kind.endsValue } rfl (not_within depth hrest (.inl hbreak))
      fun count => Within.of_emit (step_of_lexeme h.owed hstart hrest htrivia hbreak hscan) count
  refine ⟨rest', hrest', ?_, ?_, hstays⟩
  · rw [← h.lineHasToken, hmargins.triviaWidth_eq, htrivia]
    rw [htrivia]
    exact fun count hcount _ => by omega
  · rw [← h.afterValue]
    exact hmargins.scan_eq hbreak fun lexeme hscan => hrest ▸ hstays lexeme hscan

/-- A lexeme within a line is read on both sides. -/
theorem lexeme {lexeme : Lexeme} (htrivia : Lexeme.triviaWidth s.lineHasToken (c :: rest) = 0)
    (hbreak : c ≠ '\n') (hscan : Lexeme.scan s.afterValue c rest = some lexeme) :
    Together source other depth s.lineHasToken s.step s'.step := by
  obtain ⟨rest', hrest', htrivia', hscan', hstays⟩ := scan_eq h hstart hrest htrivia hbreak
  have hstays := hstays lexeme hscan
  have halong := h.along hstart
  have hskip := halong.skip hstays
  have hstep := step_of_lexeme h.owed hstart hrest htrivia hbreak hscan
  have hstep' := step_of_lexeme h.owed' (h.atLineStart ▸ hstart) hrest' htrivia' hbreak
    (hscan'.trans hscan)
  have hplain := Lexeme.solid_of_scan hscan
  rw [hstep, hstep']
  refine .emit ?_ hplain.2 ?_ (by simp)
  · exact {
      kind := rfl
      text := by rw [halong.rest.take hstays]
      line := halong.line
      start := halong.corresponds
      width := halong.exists_bytes hstays
      stop := fun _ => hskip.corresponds
      brace := fun hbrace => by
        rw [Lexeme.eq_plain_of_brace hscan hbrace, hrest']
        simp [Lexeme.plain] }
  · have hless := length_skip_lt (s := s) { s with
      cursor := s.cursor.skip lexeme.width
      groups := groupsAfter lexeme.kind s.groups
      lineHasToken := true
      afterValue := lexeme.kind.endsValue } rfl (Lexeme.width_pos_of_scan hscan) hrest
    exact { h with
      lineHasToken := rfl
      groups := by rw [h.groups]
      afterValue := rfl
      begins := fun hother => by simp [hstart] at hother
      value := fun hother => by simp at hother
      place := place_of_along (hskip.mono fun count hcount =>
        Within.of_emit hstep count (by dsimp only at hless; omega)) }

theorem ignore (htrivia : Lexeme.triviaWidth s.lineHasToken (c :: rest) = 0)
    (hbreak : c ≠ '\n') (hscan : Lexeme.scan s.afterValue c rest = none) :
    Together source other depth s.lineHasToken s.step s'.step := by
  obtain ⟨rest', hrest', htrivia', hscan', -⟩ := scan_eq h hstart hrest htrivia hbreak
  have hstep {s : Scanner} {rest : List Char} (howed : s.owed = []) (hstart : s.atLineStart = false)
      (hrest : s.cursor.rest = c :: rest)
      (htrivia : Lexeme.triviaWidth s.lineHasToken (c :: rest) = 0)
      (hscan : Lexeme.scan s.afterValue c rest = none) :
      s.step = .skip { s with cursor := s.cursor.skip 1 } := by
    unfold step
    rw [howed, hstart, hrest]
    dsimp only
    rw [if_neg (by simp), htrivia, if_neg (Nat.lt_irrefl 0), if_neg hbreak, hscan]
    rfl
  exact skip h hstart hrest (.inl hbreak) Nat.one_pos (hstep h.owed hstart hrest htrivia hscan)
    (hstep h.owed' (h.atLineStart ▸ hstart) hrest' htrivia' (hscan'.trans hscan))

end

/-! ## Line breaks -/

section

variable {rest : List Char} (h : Alongside source other depth s s')
  (hstart : s.atLineStart = false) (hrest : s.cursor.rest = '\n' :: rest)
include h hstart hrest

/-- Behind a line break the margins of the lines there differ. -/
theorem behind_break (within : Nat → Prop)
    (himp : ∀ count ≤ rest.length, Within depth s count → within count) :
    ∃ rest', s'.cursor.rest = '\n' :: rest' ∧ ∃ blanks blanks', blanks <+: rest ∧
      blanks' <+: rest' ∧ (∀ c ∈ blanks, isMargin c = true) ∧
      (∀ c ∈ blanks', isMargin c = true) ∧
      (s.cursor.next.skip blanks.length).Along source other within
        (s'.cursor.next.skip blanks'.length) := by
  have halong := h.along hstart
  have hmargins := halong.rest
  rw [hrest] at hmargins
  obtain ⟨rest', hrest', hmargins⟩ | ⟨-, -, blanks, blanks', rest, rest', rfl, hrest', hblanks,
    hblanks', hmargins⟩ := hmargins.cons
  · refine ⟨rest', hrest', [], [], List.nil_prefix, List.nil_prefix, by simp, by simp, ?_⟩
    refine halong.of_skips 1 1 ?_ ?_
    · rw [hrest, hrest']
      rfl
    · rw [hrest, hrest']
      exact hmargins.mono himp
  · refine ⟨_, hrest', blanks, blanks', List.prefix_append _ _, List.prefix_append _ _, hblanks,
      hblanks', ?_⟩
    have hcount {blanks : List Char} (hblanks : ∀ c ∈ blanks, isMargin c = true) :
        blanks.count '\n' = 0 :=
      List.count_eq_zero.mpr fun hmem => Text.ne_break_of_isMargin (hblanks _ hmem) rfl
    refine halong.of_skips (blanks.length + 1) (blanks'.length + 1) ?_ ?_
    · rw [hrest, hrest', List.take_succ_cons, List.take_succ_cons, List.take_left,
        List.take_left, List.count_cons, List.count_cons, hcount hblanks, hcount hblanks']
    · rw [hrest, hrest', List.drop_succ_cons, List.drop_succ_cons, List.drop_left,
        List.drop_left]
      refine hmargins.mono fun count hcount => himp count (Nat.le_trans hcount ?_)
      rw [List.length_append]
      exact Nat.le_add_left _ _

/-- A line break is met on both sides. -/
theorem lineBreak : Together source other depth s.lineHasToken s.step s'.step := by
  have hstart' : s'.atLineStart = false := h.atLineStart ▸ hstart
  have hstep := step_of_break h.owed hstart hrest
  obtain ⟨rest', hrest', -⟩ := h.behind_break hstart hrest (Within depth s)
    fun _ _ => id
  have hstep' := step_of_break h.owed' hstart' hrest'
  by_cases hgroups : s.groups = 0
  case neg =>
    have hgroups' : 0 < s'.groups := h.groups ▸ Nat.pos_of_ne_zero hgroups
    rw [breakLine, if_pos (Nat.pos_of_ne_zero hgroups)] at hstep
    rw [breakLine, if_pos hgroups'] at hstep'
    exact skip h hstart hrest (.inr hgroups) Nat.one_pos hstep hstep'
  have hnext : s.cursor.next.rest = rest := by rw [Cursor.rest_next, hrest, List.tail_cons]
  have hless : rest.length < s.cursor.rest.length := by
    rw [hrest]
    exact Nat.lt_succ_self _
  rw [breakLine, if_neg (by omega)] at hstep
  rw [breakLine, if_neg (by rw [← h.groups]; omega), ← h.lineHasToken] at hstep'
  cases hline : s.lineHasToken with
  | false =>
      rw [if_neg (by simp [hline])] at hstep hstep'
      obtain ⟨rest', hrest', hplace⟩ := h.behind_break hstart hrest
        (Within depth { s with cursor := s.cursor.next, atLineStart := true })
        fun count hcount => Within.of_skip hstep count (by omega)
      have hnext' : s'.cursor.next.rest = rest' := by
        rw [Cursor.rest_next, hrest', List.tail_cons]
      obtain ⟨blanks, blanks', hprefix, hprefix', hblanks, hblanks', halong⟩ := hplace
      rw [hstep, hstep']
      refine .skip { h with
        atLineStart := rfl
        lineHasToken := rfl
        begins := fun _ => ⟨hline, hgroups⟩
        place := ⟨blanks, blanks', hnext ▸ hprefix, hnext' ▸ hprefix', hblanks, hblanks',
          fun hother => by simp at hother, halong⟩ } hline
  | true =>
      rw [hline, if_pos rfl] at hstep hstep'
      obtain ⟨rest', hrest', hplace⟩ := h.behind_break hstart hrest
        (Within depth { s with
          cursor := s.cursor.next
          atLineStart := true
          lineHasToken := false
          afterValue := false })
        fun count hcount => Within.of_emit hstep count (by omega)
      have hnext' : s'.cursor.next.rest = rest' := by
        rw [Cursor.rest_next, hrest', List.tail_cons]
      obtain ⟨blanks, blanks', hprefix, hprefix', hblanks, hblanks', halong⟩ := hplace
      rw [hstep, hstep']
      refine .emit ?_ TokenKind.noConfusion ?_ fun _ => rfl
      · exact {
          kind := rfl
          text := rfl
          line := (h.along hstart).line
          start := (h.along hstart).corresponds
          width := by
            refine ⟨1, ?_, ?_⟩
            · exact (Cursor.offset_skip s.cursor 1).trans (by rw [hrest]; rfl)
            · exact (Cursor.offset_skip s'.cursor 1).trans (by rw [hrest']; rfl)
          stop := fun hother => by contradiction
          brace := fun hother => by contradiction }
      · exact { h with
          atLineStart := rfl
          lineHasToken := rfl
          afterValue := rfl
          begins := fun _ => ⟨rfl, hgroups⟩
          value := fun _ => rfl
          place := ⟨blanks, blanks', hnext ▸ hprefix, hnext' ▸ hprefix', hblanks, hblanks',
            fun hother => by simp at hother, halong⟩ }

end

/-- Within a line both scanners take the same step. -/
theorem together {c : Char} {rest : List Char} (h : Alongside source other depth s s')
    (hstart : s.atLineStart = false) (hrest : s.cursor.rest = c :: rest) :
    Together source other depth s.lineHasToken s.step s'.step := by
  by_cases hwidth : 0 < Lexeme.triviaWidth s.lineHasToken (c :: rest)
  · exact h.trivia hstart hrest hwidth
  have htrivia := Nat.eq_zero_of_not_pos hwidth
  by_cases hbreak : c = '\n'
  · subst hbreak
    exact h.lineBreak hstart hrest
  cases hscan : Lexeme.scan s.afterValue c rest with
  | none => exact h.ignore hstart hrest htrivia hbreak hscan
  | some lexeme => exact h.lexeme hstart hrest htrivia hbreak hscan

/-! ## The heads of lines -/

end Alongside

theorem startLine_fields (s : Scanner) : s.startLine.atLineStart = false ∧
    s.startLine.lineHasToken = s.lineHasToken ∧ s.startLine.groups = s.groups ∧
    s.startLine.afterValue = s.afterValue := by
  unfold startLine
  dsimp only
  split <;> exact ⟨rfl, rfl, rfl, rfl⟩

/-- A line asks for layout only where it holds more than blanks and a comment. -/
theorem exists_cons_of_owed (howed : s.owed = []) (h : s.startLine.owed ≠ []) :
    ∃ c rest, s.startLine.cursor.rest = c :: rest ∧ c ≠ '\n' ∧ isMargin c = false := by
  rw [cursor_startLine, Cursor.rest_skip]
  refine exists_cons_of_lineHead ?_
  by_contra hempty
  refine h ?_
  unfold startLine
  dsimp only
  rw [if_neg hempty]
  exact howed

namespace Alongside

variable (h : Alongside source other depth s s') (hstart : s.atLineStart = true)
include h hstart

/-- What is kept of the line breaks ahead at the head of a line. -/
theorem within_paid {count : Nat} {blanks rest : List Char} (hrest : s.cursor.rest = blanks ++ rest)
    (hblanks : ∀ c ∈ blanks, isMargin c = true) (hwithin : Within depth s count)
    (hcount : count ≤ rest.length) :
    (lineHead rest).1 + count ≤ rest.length ∧ Within depth s.startLine.paid count := by
  have hstep := step_of_lineStart h.owed hstart (h.begins hstart).2
  have hvalue := h.value (h.begins hstart).1
  have hcursor := cursor_startLine s
  rw [hrest, lineHead_margin hblanks] at hcursor
  dsimp only at hcursor
  obtain ⟨-, -, hgroups, hvalue'⟩ := startLine_fields s
  have hpos := (bounds_of_breaksWithin hwithin).1
  by_cases hlength : s.cursor.rest.length = count
  · have hnone : blanks = [] := by
      rw [hrest, List.length_append] at hlength
      exact List.eq_nil_of_length_eq_zero (by omega)
    subst hnone
    rw [List.nil_append] at hrest
    rw [Within, breaksWithin_of_length hlength] at hwithin
    have hhead : rest.head? = some '\n' := by
      simp only [Bool.and_eq_true, decide_eq_true_eq] at hwithin
      exact hrest ▸ hwithin.1.1
    have hzero : (lineHead rest).1 = 0 := by
      cases rest with
      | nil => cases hhead
      | cons c rest =>
          have hbreak : c = '\n' := Option.some.inj hhead
          subst hbreak
          rfl
    rw [hzero] at hcursor ⊢
    refine ⟨by omega, ?_⟩
    have hsame : s.startLine.paid.cursor = s.cursor := hcursor
    rwa [Within, breaksWithin_of_length (hsame ▸ hlength), hsame,
      show s.startLine.paid.groups = s.groups from hgroups]
  · have hnext := Within.of_skip hstep count hlength hwithin
    have hle := (bounds_of_breaksWithin hnext).2
    rw [hcursor, Cursor.rest_skip, hrest, List.length_drop, List.length_append] at hle
    refine ⟨by omega, ?_⟩
    rwa [Within, breaksWithin_of_owed (hvalue'.trans hvalue)
      (isLayout_of_owed_startLine h.owed)] at hnext

/-- Behind the heads of their lines the scanners are alongside but for what is owed. -/
theorem paid : Alongside source other depth s.startLine.paid s'.startLine.paid := by
  obtain ⟨blanks, blanks', ⟨rest, hrest⟩, ⟨rest', hrest'⟩, hblanks, hblanks', -, halong⟩ := h.place
  have hstays : Remargined.Stays (Within depth s) rest (lineHead rest).1 :=
    fun count hcount hwithin =>
      (h.within_paid hstart hrest.symm hblanks hwithin hcount).1
  have hskip : (s.cursor.skip blanks.length).rest = rest := by
    rw [Cursor.rest_skip, ← hrest, List.drop_left]
  have hskip' : (s'.cursor.skip blanks'.length).rest = rest' := by
    rw [Cursor.rest_skip, ← hrest', List.drop_left]
  have hmargins := halong.rest
  rw [hskip, hskip'] at hmargins
  have hhead := hmargins.lineHead_eq hstays
  have hcursor : s.startLine.cursor = (s.cursor.skip blanks.length).skip (lineHead rest).1 := by
    rw [cursor_startLine, ← hrest, lineHead_margin hblanks, Cursor.skip_add]
  have hcursor' : s'.startLine.cursor =
      (s'.cursor.skip blanks'.length).skip (lineHead rest).1 := by
    rw [cursor_startLine, ← hrest', lineHead_margin hblanks', Cursor.skip_add, hhead]
  obtain ⟨hline, hsame, hgroups, hvalue⟩ := startLine_fields s
  obtain ⟨hline', hsame', hgroups', hvalue'⟩ := startLine_fields s'
  exact {
    owed := rfl
    owed' := rfl
    atLineStart := hline.trans hline'.symm
    lineHasToken := (hsame.trans h.lineHasToken).trans hsame'.symm
    groups := (hgroups.trans h.groups).trans hgroups'.symm
    afterValue := (hvalue.trans h.afterValue).trans hvalue'.symm
    begins := fun hother => absurd (hline.symm.trans hother) Bool.false_ne_true
    value := fun hother => hvalue.trans (h.value (hsame.symm.trans hother))
    place := by
      refine place_of_along ?_
      change s.startLine.cursor.Along source other _ s'.startLine.cursor
      rw [hcursor, hcursor']
      refine (halong.skip (hskip ▸ hstays)).mono fun count hcount hwithin => ?_
      rw [Cursor.rest_skip, hskip, List.length_drop] at hcount
      exact (h.within_paid hstart hrest.symm hblanks hwithin (by omega)).2 }

end Alongside

end Scanner

end SceneLang
