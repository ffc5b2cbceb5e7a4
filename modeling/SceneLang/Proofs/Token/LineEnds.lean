import SceneLang.Proofs.Token.Layout
import SceneLang.Proofs.Token.Tiling

/-!
# The ends of lines

Layout that follows another token begins with the end of its line: the scanner is within a line
behind such a token, and nothing is owed there.  So unless the text ends, there is a line break in
front of whatever comes after the layout.
-/

namespace SceneLang
namespace Scanner

variable {s next : Scanner} {token : Token} {emitted : List Token}

/-- A line has been begun and holds a token. -/
structure WithinLine (s : Scanner) : Prop where
  owed : s.owed = []
  atLineStart : s.atLineStart = false
  lineHasToken : s.lineHasToken = true

/-- A line starts outside of brackets only, and behind a token that is no layout the scanner is within one. -/
structure Lined (emitted : List Token) (s : Scanner) : Prop where
  outside : s.atLineStart = true → s.groups = 0
  within : ∀ last ∈ emitted.getLast?, last.kind.isLayout = false → s.WithinLine

theorem lined_ofText (text : List Char) : Lined [] (ofText text) :=
  ⟨fun _ => rfl, fun _ h => by cases h⟩

theorem atLineStart_startLine : s.startLine.atLineStart = false := by
  unfold startLine
  dsimp only
  split <;> rfl

namespace Lined

theorem skip (h : Lined emitted s) (hstep : s.step = .skip next) : Lined emitted next := by
  have hmoves := hstep ▸ moves_step s
  cases hmoves with
  | startLine _ hstart =>
      refine ⟨fun hagain => ?_, fun last hlast hlayout => ?_⟩
      · rw [atLineStart_startLine] at hagain
        contradiction
      · rw [(h.within last hlast hlayout).atLineStart] at hstart
        contradiction
  | trivia | joinLines | ignore =>
      exact ⟨h.outside, fun last hlast hlayout =>
        have hwithin := h.within last hlast hlayout
        ⟨hwithin.owed, hwithin.atLineStart, hwithin.lineHasToken⟩⟩
  | leaveLine _ _ hgroups hline =>
      refine ⟨fun _ => hgroups, fun last hlast hlayout => ?_⟩
      rw [(h.within last hlast hlayout).lineHasToken] at hline
      contradiction

theorem emit (h : Lined emitted s) (hstep : s.step = .emit token next)
    (howes : ∀ kind ∈ s.owed, kind.isLayout = true) : Lined (emitted ++ [token]) next := by
  have hlast {p : Prop} (hlayout : token.kind.isLayout = true) :
      ∀ last ∈ (emitted ++ [token]).getLast?, last.kind.isLayout = false → p := by
    intro last hlast hkind
    rw [List.getLast?_concat, Option.mem_some_iff] at hlast
    rw [← hlast, hlayout] at hkind
    contradiction
  have hmoves := hstep ▸ moves_step s
  cases hmoves with
  | owed howed =>
      exact ⟨h.outside, hlast (howes _ (howed ▸ List.mem_cons_self))⟩
  | endLine | endLevel => exact ⟨h.outside, hlast rfl⟩
  | breakLine _ _ hgroups => exact ⟨fun _ => hgroups, hlast rfl⟩
  | lexeme howed hrest =>
      have hstart : s.atLineStart = false := by
        by_contra hstart
        have hstart := eq_true_of_ne_false hstart
        simp [step, howed, hstart, h.outside hstart] at hstep
      refine ⟨fun hagain => ?_, fun _ _ _ => ⟨howed, hstart, rfl⟩⟩
      rw [hstart] at hagain
      contradiction

end Lined

theorem Emits.lined {text : List Char} (h : Emits (ofText text) emitted s) : Lined emitted s := by
  have hboth := Emits.invariant (fun emitted s => Layered emitted s ∧ Lined emitted s)
    (fun hholds hstep => ⟨hholds.1.skip hstep, hholds.2.skip hstep⟩)
    (fun hholds hstep => ⟨hholds.1.emit hstep, hholds.2.emit hstep fun kind hmem => by
      obtain rfl | rfl := hholds.1.owed kind hmem <;> rfl⟩)
    h ⟨layered_ofText text, lined_ofText text⟩
  exact hboth.2

/-- Within a line, layout is the line break at its end, or stands at the end of the text. -/
theorem WithinLine.layout {text : List Char} (h : s.WithinLine) (hin : s.cursor.In text)
    (hstep : s.step = .emit token next) (hlayout : token.kind.isLayout = true) :
    (∃ front back, text = front ++ '\n' :: back ∧
      token.span = ⟨Text.byteLength front, Text.byteLength front + 1⟩) ∨
      token.span.start = Text.byteLength text := by
  have hmoves := hstep ▸ moves_step s
  cases hmoves with
  | owed howed =>
      rw [h.owed] at howed
      contradiction
  | endLine _ hrest => exact .inr (hin.offset_eq hrest)
  | endLevel _ _ hline =>
      rw [h.lineHasToken] at hline
      contradiction
  | @breakLine back _ hrest =>
      obtain ⟨front, rest, rfl, hcursor⟩ := hin
      rw [hcursor, Cursor.rest_behind] at hrest
      subst hrest
      refine .inl ⟨front, back, rfl, ?_⟩
      rw [hcursor, Cursor.next_behind]
      simp [Cursor.behind, Char.utf8Size]
  | lexeme _ _ _ hscan =>
      exact absurd hlayout (Bool.eq_false_iff.mp (Lexeme.solid_of_scan hscan).1)

/-- The run up to a token other than the last one. -/
theorem exists_emits_of_tokens {front back : List Token} (h : s.tokens = front ++ token :: back)
    (hkind : token.kind ≠ .eof) :
    ∃ before after, Emits s front before ∧ before.step = .emit token after ∧ after.tokens = back := by
  obtain ⟨tokens, last, final, hrun, hfinish, htokens⟩ := s.exists_emits_finish
  rw [h] at htokens
  obtain rfl | ⟨others, other, rfl⟩ := back.eq_nil_or_concat'
  · obtain ⟨-, hfinal⟩ := List.append_inj' htokens rfl
    rw [List.singleton_inj.mp hfinal] at hkind
    exact absurd (kind_of_finish hfinish) hkind
  · rw [← List.cons_append, ← List.append_assoc] at htokens
    obtain ⟨rfl, -⟩ := List.append_inj' htokens rfl
    obtain ⟨before, after, hfront, hemit, -⟩ := hrun.cut
    refine ⟨before, after, hfront, hemit, ?_⟩
    rw [hfront.tokens_eq, tokens_of_emit hemit, List.append_cancel_left_eq] at h
    exact (List.cons.inj h).2

theorem exists_emits_of_split {text : List Char} {front back : List Token}
    (h : tokenize text = front ++ token :: back) (hkind : token.kind ≠ .eof) :
    ∃ before after, Emits (ofText text) front before ∧ before.step = .emit token after := by
  obtain ⟨before, after, hfront, hemit, -⟩ := exists_emits_of_tokens h hkind
  exact ⟨before, after, hfront, hemit⟩

/-- A token that is no layout takes up characters. -/
theorem Emits.start_lt_stop {text : List Char} (h : Emits (ofText text) emitted s)
    (hstep : s.step = .emit token next) (hlayout : token.kind.isLayout = false) :
    token.span.start < token.span.stop := by
  have hmoves := hstep ▸ moves_step s
  cases hmoves with
  | owed howed =>
      have hkind := h.layered.owed _ (howed ▸ List.mem_cons_self)
      obtain rfl | rfl := hkind <;> contradiction
  | endLine | endLevel | breakLine => contradiction
  | @lexeme c rest lexeme _ hrest _ hscan =>
      obtain ⟨front, back, -, hcursor⟩ := h.in
      rw [hcursor, Cursor.rest_behind] at hrest
      obtain ⟨width, hwidth⟩ := Nat.exists_eq_add_one.mpr (Lexeme.width_pos_of_scan hscan)
      have hsize := Char.utf8Size_pos c
      change s.cursor.offset < (s.cursor.skip lexeme.width).offset
      rw [hcursor, hrest, hwidth, Cursor.skip_behind, List.take_succ_cons]
      simp only [Cursor.behind, Text.byteLength_append, Text.byteLength_cons]
      omega

end Scanner

/-- Every token but the end token stands in front of it. -/
theorem mem_takeWhile_tokenize {text : List Char} {token : Token} (hmem : token ∈ tokenize text)
    (heof : token.kind ≠ .eof) : token ∈ (tokenize text).takeWhile (·.kind ≠ .eof) := by
  obtain ⟨tokens, last, final, hrun, hfinish, htokens⟩ :=
    (Scanner.ofText text).exists_emits_finish
  have hfinal := Scanner.kind_of_finish hfinish
  have hbefore : ∀ other ∈ tokens, decide (other.kind ≠ .eof) = true := by
    intro other hother
    obtain ⟨front, back, rfl⟩ := List.append_of_mem hother
    obtain ⟨before, after, hfront, hemit, -⟩ := hrun.cut
    exact decide_eq_true (Scanner.ne_eof_of_emit hfront hemit)
  rw [tokenize, htokens] at hmem ⊢
  rw [List.takeWhile_append_of_pos hbefore]
  obtain hmem | hmem := List.mem_append.mp hmem
  · exact List.mem_append_left _ hmem
  · rw [List.mem_singleton.mp hmem] at heof
    exact absurd hfinal heof

theorem start_lt_stop_of_tokenize {text : List Char} {token : Token}
    (hmem : token ∈ tokenize text) (hlayout : token.kind.isLayout = false)
    (heof : token.kind ≠ .eof) : token.span.start < token.span.stop := by
  obtain ⟨front, back, hsplit⟩ := List.append_of_mem hmem
  obtain ⟨before, after, hrun, hstep⟩ := Scanner.exists_emits_of_split hsplit heof
  exact hrun.start_lt_stop hstep hlayout

/-- Layout behind another token is the line break at the end of its line, or stands at the end of
the text. -/
theorem lineEnd_of_tokenize {text : List Char} {front back : List Token} {token mark : Token}
    (h : tokenize text = front ++ token :: mark :: back) (htoken : token.kind.isLayout = false)
    (hmark : mark.kind.isLayout = true) :
    (∃ front back, text = front ++ '\n' :: back ∧
      mark.span = ⟨Text.byteLength front, Text.byteLength front + 1⟩) ∨
      mark.span.start = Text.byteLength text := by
  rw [List.append_cons] at h
  have hkind : mark.kind ≠ .eof := by
    intro heof
    rw [heof] at hmark
    contradiction
  obtain ⟨before, after, hrun, hstep⟩ := Scanner.exists_emits_of_split h hkind
  exact (hrun.lined.within token List.getLast?_concat htoken).layout hrun.in hstep hmark

end SceneLang
