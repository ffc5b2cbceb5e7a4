import SceneLang.Token.Stream

/-!
# Steps of the scanner

What one step of the scanner can do, said once, and the runs that steps make up.  A property
of the token stream is an invariant of one step, read off a run that starts at the head of a
text.  Where a run has come to is told by the text that lies behind it.
-/

namespace SceneLang

/-! ## Places -/

/-- The place behind a text: the line counts its line breaks, the column the characters
behind the last of them. -/
def Position.behind (front : List Char) : Position :=
  ⟨front.count '\n' + 1, (front.reverse.takeWhile (· ≠ '\n')).length + 1⟩

namespace Cursor

/-- The cursor between what has been read of a text and what has not. -/
def behind (front rest : List Char) : Cursor :=
  ⟨rest, Text.byteLength front, .behind front⟩

@[simp] theorem rest_behind (front rest : List Char) : (behind front rest).rest = rest := rfl

theorem next_behind (front : List Char) (c : Char) (rest : List Char) :
    (behind front (c :: rest)).next = behind (front ++ [c]) rest := by
  have hoffset : Text.byteLength (front ++ [c]) = Text.byteLength front + c.utf8Size := by
    rw [Text.byteLength_append, Text.byteLength_cons, Text.byteLength_nil, Nat.add_zero]
  simp only [next, behind, hoffset, Position.behind, List.reverse_append, List.reverse_singleton,
    List.singleton_append, List.takeWhile_cons, List.count_append, List.count_singleton]
  by_cases hbreak : c = '\n'
  · simp [hbreak]
  · simp [hbreak]

/-- Skipping goes over as many characters, or to the end of the text. -/
theorem skip_behind (width : Nat) (front rest : List Char) :
    (behind front rest).skip width = behind (front ++ rest.take width) (rest.drop width) := by
  induction width generalizing front rest with
  | zero => simp [skip]
  | succ width ih =>
      cases rest with
      | nil =>
          have hnext : (behind front []).next = behind front [] := rfl
          rw [skip, hnext, ih]
          simp
      | cons c rest => simp [skip, next_behind, ih]

/-- The cursor stands somewhere in a text. -/
def In (cursor : Cursor) (text : List Char) : Prop :=
  ∃ front rest, text = front ++ rest ∧ cursor = behind front rest

theorem in_ofText (text : List Char) : (ofText text).In text :=
  ⟨[], text, rfl, rfl⟩

theorem In.skip {text : List Char} {cursor : Cursor} (h : cursor.In text) (width : Nat) :
    (cursor.skip width).In text := by
  obtain ⟨front, rest, rfl, rfl⟩ := h
  refine ⟨front ++ rest.take width, rest.drop width, ?_, skip_behind width front rest⟩
  rw [List.append_assoc, List.take_append_drop]

theorem In.next {text : List Char} {cursor : Cursor} (h : cursor.In text) : cursor.next.In text :=
  h.skip 1

theorem In.offset_eq {text : List Char} {cursor : Cursor} (h : cursor.In text)
    (hrest : cursor.rest = []) : cursor.offset = Text.byteLength text := by
  obtain ⟨front, rest, rfl, rfl⟩ := h
  rw [rest_behind] at hrest
  rw [hrest, List.append_nil]
  rfl

end Cursor

/-! ## Lexemes -/

namespace Lexeme

variable {c : Char} {rest : List Char} {lexeme : Lexeme}

/-- A kind of token that stands for characters of the text, and for no place between them. -/
def IsSolid (kind : TokenKind) : Prop :=
  kind.isLayout = false ∧ kind ≠ .eof

theorem solid_of_symbol? (h : symbol? c rest = some lexeme) :
    ∃ kind width, lexeme = plain kind width ∧ IsSolid kind := by
  have hplain {kind : TokenKind} {width : Nat} (hkind : kind.isLayout = false ∧ kind ≠ .eof) :
      ∃ kind' width', plain kind width = plain kind' width' ∧ IsSolid kind' :=
    ⟨kind, width, rfl, hkind⟩
  unfold symbol? at h
  dsimp only at h
  split at h <;> (repeat' split at h) <;> cases h <;> exact hplain (by decide)

/-- The kinds of what is no symbol, and has come to its end. -/
def wordKinds : List TokenKind := [.identifier, .string, .number, .boolean, .null]

theorem kind_of_symbol? (h : symbol? c rest = some lexeme) : lexeme.kind ∉ wordKinds := by
  unfold symbol? at h
  dsimp only at h
  split at h <;> (repeat' split at h) <;> cases h <;> exact show _ ∉ wordKinds by decide

theorem solid_wordKind (word : List Char) : IsSolid (wordKind word) := by
  unfold wordKind
  split
  · exact ⟨rfl, by decide⟩
  split
  · exact ⟨rfl, by decide⟩
  · exact ⟨rfl, by decide⟩

/-- A lexeme is a quoted text, an interpolation, or stands for just its characters. -/
theorem scan_cases {afterValue : Bool} (h : scan afterValue c rest = some lexeme) :
    lexeme.kind = .string ∨ lexeme.kind = .unterminatedString ∨ lexeme.kind = .interpolation ∨
      ∃ kind width, lexeme = plain kind width ∧ IsSolid kind := by
  have hnumber : IsSolid .number := ⟨rfl, by decide⟩
  unfold scan at h
  dsimp only at h
  split at h
  · cases h
    exact .inr (.inr (.inr ⟨_, _, rfl, hnumber⟩))
  split at h
  · cases h
    split
    · exact .inl rfl
    · exact .inr (.inl rfl)
  split at h
  · cases h
    exact .inr (.inr (.inl rfl))
  split at h
  · cases h
    exact .inr (.inr (.inr ⟨_, _, rfl, hnumber⟩))
  split at h
  · cases h
    exact .inr (.inr (.inr ⟨_, _, rfl, solid_wordKind _⟩))
  · exact .inr (.inr (.inr (solid_of_symbol? h)))

theorem solid_of_scan {afterValue : Bool} (h : scan afterValue c rest = some lexeme) :
    IsSolid lexeme.kind := by
  obtain hkind | hkind | hkind | ⟨kind, width, rfl, hkind⟩ := scan_cases h
  · exact hkind ▸ ⟨rfl, by decide⟩
  · exact hkind ▸ ⟨rfl, by decide⟩
  · exact hkind ▸ ⟨rfl, by decide⟩
  · exact hkind

end Lexeme

namespace Scanner

/-! ## One step -/

/-- Everything that one step of the scanner can do. -/
inductive Moves (s : Scanner) : Step → Prop
  | owed {kind : TokenKind} {owed : List TokenKind} (howed : s.owed = kind :: owed) :
      Moves s (.emit (s.mark kind) { s with owed := owed, afterValue := false })
  | startLine (howed : s.owed = []) (hstart : s.atLineStart = true) (hgroups : s.groups = 0) :
      Moves s (.skip s.startLine)
  | endLine (howed : s.owed = []) (hrest : s.cursor.rest = []) (hline : s.lineHasToken = true) :
      Moves s (.emit (s.mark .newline) { s with lineHasToken := false, afterValue := false })
  | endLevel {level : Nat} {outer : List Nat} (howed : s.owed = []) (hrest : s.cursor.rest = [])
      (hline : s.lineHasToken = false) (hlevels : s.levels = level :: outer) :
      Moves s (.emit (s.mark .dedent) { s with levels := outer, afterValue := false })
  | finish (howed : s.owed = []) (hrest : s.cursor.rest = []) (hline : s.lineHasToken = false)
      (hlevels : s.levels = []) :
      Moves s (.finish (s.mark .eof))
  | trivia {c : Char} {rest : List Char} (howed : s.owed = []) (hrest : s.cursor.rest = c :: rest)
      (hwidth : 0 < Lexeme.triviaWidth s.lineHasToken (c :: rest)) :
      Moves s (.skip
        { s with cursor := s.cursor.skip (Lexeme.triviaWidth s.lineHasToken (c :: rest)) })
  | joinLines {rest : List Char} (howed : s.owed = []) (hrest : s.cursor.rest = '\n' :: rest)
      (hgroups : 0 < s.groups) :
      Moves s (.skip { s with cursor := s.cursor.next })
  | breakLine {rest : List Char} (howed : s.owed = []) (hrest : s.cursor.rest = '\n' :: rest)
      (hgroups : s.groups = 0) (hline : s.lineHasToken = true) :
      Moves s (.emit ⟨.newline, "\n", ⟨s.cursor.offset, s.cursor.next.offset⟩, s.cursor.position⟩
        { s with
          cursor := s.cursor.next
          atLineStart := true
          lineHasToken := false
          afterValue := false })
  | leaveLine {rest : List Char} (howed : s.owed = []) (hrest : s.cursor.rest = '\n' :: rest)
      (hgroups : s.groups = 0) (hline : s.lineHasToken = false) :
      Moves s (.skip { s with cursor := s.cursor.next, atLineStart := true })
  | ignore {c : Char} {rest : List Char} (howed : s.owed = []) (hrest : s.cursor.rest = c :: rest)
      (htrivia : Lexeme.triviaWidth s.lineHasToken (c :: rest) = 0)
      (hscan : Lexeme.scan s.afterValue c rest = none) :
      Moves s (.skip { s with cursor := s.cursor.next })
  | lexeme {c : Char} {rest : List Char} {lexeme : Lexeme} (howed : s.owed = [])
      (hrest : s.cursor.rest = c :: rest)
      (htrivia : Lexeme.triviaWidth s.lineHasToken (c :: rest) = 0)
      (hscan : Lexeme.scan s.afterValue c rest = some lexeme) :
      Moves s (s.emitLexeme lexeme)

theorem moves_close {s : Scanner} (howed : s.owed = []) (hrest : s.cursor.rest = []) :
    Moves s s.close := by
  unfold close
  split
  next hline => exact .endLine howed hrest hline
  next hline =>
  split
  next level outer hlevels => exact .endLevel howed hrest (eq_false_of_ne_true hline) hlevels
  next hlevels => exact .finish howed hrest (eq_false_of_ne_true hline) hlevels

theorem moves_breakLine {s : Scanner} {rest : List Char} (howed : s.owed = [])
    (hrest : s.cursor.rest = '\n' :: rest) : Moves s s.breakLine := by
  unfold breakLine
  dsimp only
  split
  next hgroups => exact .joinLines howed hrest hgroups
  next hgroups =>
  have houtside := Nat.eq_zero_of_not_pos hgroups
  split
  next hline => exact .breakLine howed hrest houtside hline
  next hline => exact .leaveLine howed hrest houtside (eq_false_of_ne_true hline)

theorem moves_step (s : Scanner) : Moves s s.step := by
  unfold step
  split
  next kind owed howed => exact .owed howed
  next howed =>
  split
  next hstart => exact .startLine howed hstart.1 hstart.2
  split
  next hrest => exact moves_close howed hrest
  next c rest hrest =>
  dsimp only
  split
  next hwidth => exact .trivia howed hrest hwidth
  next hwidth =>
  have htrivia := Nat.eq_zero_of_not_pos hwidth
  split
  next hbreak =>
    subst hbreak
    exact moves_breakLine howed hrest
  split
  next hscan => exact .ignore howed hrest htrivia hscan
  next lexeme hscan => exact .lexeme howed hrest htrivia hscan

/-! ## Runs -/

variable {s next last : Scanner} {token : Token} {tokens front back : List Token}

theorem tokens_of_emit (h : s.step = .emit token next) : s.tokens = token :: next.tokens := by
  rw [Scanner.tokens]
  split <;> simp_all

theorem tokens_of_skip (h : s.step = .skip next) : s.tokens = next.tokens := by
  rw [Scanner.tokens]
  split <;> simp_all

theorem tokens_of_finish (h : s.step = .finish token) : s.tokens = [token] := by
  rw [Scanner.tokens]
  split <;> simp_all

theorem kind_of_finish (h : s.step = .finish token) : token.kind = .eof := by
  have hmoves := h ▸ moves_step s
  cases hmoves
  rfl

/-- The scanner comes from one state to another and emits these tokens on its way. -/
inductive Emits : Scanner → List Token → Scanner → Prop
  | refl (s : Scanner) : Emits s [] s
  | skip {s next last : Scanner} {tokens : List Token} (hstep : s.step = .skip next)
      (hrest : Emits next tokens last) : Emits s tokens last
  | emit {s next last : Scanner} {token : Token} {tokens : List Token}
      (hstep : s.step = .emit token next) (hrest : Emits next tokens last) :
      Emits s (token :: tokens) last

namespace Emits

theorem tokens_eq (h : Emits s tokens last) : s.tokens = tokens ++ last.tokens := by
  induction h with
  | refl => rfl
  | skip hstep _ ih => rw [tokens_of_skip hstep, ih]
  | emit hstep _ ih => rw [tokens_of_emit hstep, ih, List.cons_append]

theorem append {middle : Scanner} (h : Emits s front middle) (h' : Emits middle back last) :
    Emits s (front ++ back) last := by
  induction h with
  | refl => exact h'
  | skip hstep _ ih => exact .skip hstep (ih h')
  | emit hstep _ ih => exact .emit hstep (ih h')

/-- A run can be cut before every token that it emits. -/
theorem cut (h : Emits s (front ++ token :: back) last) :
    ∃ before after, Emits s front before ∧ before.step = .emit token after ∧
      Emits after back last := by
  generalize htokens : front ++ token :: back = tokens at h
  induction h generalizing front with
  | refl => simp at htokens
  | skip hstep _ ih =>
      obtain ⟨before, after, hfront, hemit, hback⟩ := ih htokens
      exact ⟨before, after, .skip hstep hfront, hemit, hback⟩
  | @emit s next last first tokens hstep hrest ih =>
      cases front with
      | nil =>
          obtain ⟨rfl, rfl⟩ := List.cons.inj htokens
          exact ⟨s, next, .refl s, hstep, hrest⟩
      | cons head front =>
          obtain ⟨rfl, hfront⟩ := List.cons.inj htokens
          obtain ⟨before, after, hfront, hemit, hback⟩ := ih hfront
          exact ⟨before, after, .emit hstep hfront, hemit, hback⟩

/-- What every step keeps, of the tokens emitted so far and the state, holds behind a run. -/
theorem invariant (Holds : List Token → Scanner → Prop)
    (hskip : ∀ {emitted s next}, Holds emitted s → s.step = .skip next → Holds emitted next)
    (hemit : ∀ {emitted s token next}, Holds emitted s → s.step = .emit token next →
      Holds (emitted ++ [token]) next)
    (h : Emits s tokens last) (hstart : Holds [] s) : Holds tokens last := by
  suffices hrun : ∀ emitted, Holds emitted s → Holds (emitted ++ tokens) last from hrun [] hstart
  clear hstart
  induction h with
  | refl =>
      intro emitted hstart
      rwa [List.append_nil]
  | skip hstep _ ih =>
      intro emitted hstart
      exact ih emitted (hskip hstart hstep)
  | @emit s next last token tokens hstep _ ih =>
      intro emitted hstart
      rw [List.append_cons]
      exact ih (emitted ++ [token]) (hemit hstart hstep)

end Emits

theorem cursor_startLine (s : Scanner) :
    s.startLine.cursor = s.cursor.skip (lineHead s.cursor.rest).1 := by
  unfold startLine
  dsimp only
  split <;> rfl

/-- Every step leaves the cursor where it is or moves it forwards. -/
theorem cursor_of_skip (h : s.step = .skip next) : ∃ width, next.cursor = s.cursor.skip width := by
  have hmoves := h ▸ moves_step s
  cases hmoves with
  | startLine => exact ⟨_, cursor_startLine s⟩
  | trivia => exact ⟨_, rfl⟩
  | joinLines | leaveLine | ignore => exact ⟨1, rfl⟩

theorem cursor_of_emit (h : s.step = .emit token next) :
    ∃ width, next.cursor = s.cursor.skip width := by
  have hmoves := h ▸ moves_step s
  cases hmoves with
  | owed | endLine | endLevel => exact ⟨0, rfl⟩
  | breakLine => exact ⟨1, rfl⟩
  | lexeme => exact ⟨_, rfl⟩

theorem Emits.in {text : List Char} (h : Emits (ofText text) tokens last) :
    last.cursor.In text := by
  refine invariant (fun _ s => s.cursor.In text) ?_ ?_ h (Cursor.in_ofText text)
  · intro _ s next hin hstep
    obtain ⟨width, hcursor⟩ := cursor_of_skip hstep
    exact hcursor ▸ hin.skip width
  · intro _ s token next hin hstep
    obtain ⟨width, hcursor⟩ := cursor_of_emit hstep
    exact hcursor ▸ hin.skip width

/-- The scanner runs to the end of its text and finishes there. -/
theorem exists_emits_finish (s : Scanner) :
    ∃ tokens last token, Emits s tokens last ∧ last.step = .finish token ∧
      s.tokens = tokens ++ [token] := by
  induction s using Scanner.tokens.induct with
  | case1 s token next hstep ih =>
      obtain ⟨tokens, last, final, hrun, hfinish, htokens⟩ := ih
      exact ⟨token :: tokens, last, final, .emit hstep hrun, hfinish,
        by rw [tokens_of_emit hstep, htokens, List.cons_append]⟩
  | case2 s next hstep ih =>
      obtain ⟨tokens, last, final, hrun, hfinish, htokens⟩ := ih
      exact ⟨tokens, last, final, .skip hstep hrun, hfinish, by rw [tokens_of_skip hstep, htokens]⟩
  | case3 s token hstep =>
      exact ⟨[], s, token, .refl s, hstep, by rw [tokens_of_finish hstep, List.nil_append]⟩

end Scanner

end SceneLang
