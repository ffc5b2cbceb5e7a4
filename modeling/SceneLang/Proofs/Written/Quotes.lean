import SceneLang.Proofs.Bodies.Spelling
import SceneLang.Proofs.Written.Properties

/-!
# Texts in quotes

Reading a text in quotes undoes the escapes it is written with, whatever stands behind it.  So
where the scanner comes to such a text it makes one token of it, which has the text that was
written and stands for all of the quotes and no more.
-/

namespace SceneLang

open Lexeme Scanner
open Text (byteLength)

/-! ## Escapes -/

/-- An escaped character is read as the character itself. -/
theorem quoted_escapeChar (c : Char) (rest : List Char) :
    quoted '"' (escapeChar c ++ rest) =
      ⟨c :: (quoted '"' rest).contents, (quoted '"' rest).width + (escapeChar c).length,
        (quoted '"' rest).closed⟩ := by
  have hescape {d : Char} (hd : d ≠ '\n') (hback : unescape d = [c]) :
      quoted '"' (['\\', d] ++ rest) = ⟨c :: (quoted '"' rest).contents,
        (quoted '"' rest).width + 2, (quoted '"' rest).closed⟩ := by
    rw [List.cons_append, List.singleton_append, quoted_escape (by decide) hd, hback,
      List.singleton_append]
  unfold escapeChar
  split
  next h =>
    subst h
    exact hescape (by decide) rfl
  next hquote =>
  split
  next h =>
    subst h
    exact hescape (by decide) rfl
  next hslash =>
  split
  next h =>
    subst h
    exact hescape (by decide) rfl
  next hbreak =>
  split
  next h =>
    subst h
    exact hescape (by decide) rfl
  split
  next h =>
    subst h
    exact hescape (by decide) rfl
  next => exact quoted_char hbreak hquote hslash rest

theorem quoted_escaped (text rest : List Char) :
    quoted '"' (text.flatMap escapeChar ++ '"' :: rest) =
      ⟨text, (text.flatMap escapeChar).length + 1, true⟩ := by
  induction text with
  | nil => exact quoted_quote (by decide) rest
  | cons c text ih =>
      rw [List.flatMap_cons, List.append_assoc, quoted_escapeChar, ih, List.length_append]
      simp only [Stretch.mk.injEq, true_and, and_true]
      omega

theorem escapeText_append (text rest : List Char) :
    escapeText text ++ rest = '"' :: (text.flatMap escapeChar ++ '"' :: rest) := by
  simp [escapeText]

theorem scan_escapeText (afterValue : Bool) (text rest : List Char) :
    scan afterValue '"' (text.flatMap escapeChar ++ '"' :: rest) =
      some ⟨.string, (escapeText text).length, some text⟩ := by
  unfold scan
  dsimp only
  rw [if_neg (by simp), if_pos (.inl rfl), quoted_escaped]
  simp [escapeText]

/-- A text in quotes is a text of its own. -/
def Written.ofText (text : List Char) : Written [.string] where
  chars := escapeText text
  lexeme := ⟨.string, (escapeText text).length, some text⟩
  whole := by
    have hscan := scan_escapeText false text []
    have hchars : escapeText text = '"' :: (text.flatMap escapeChar ++ ['"']) := rfl
    rw [hchars, whole?, hscan]
    exact Option.filter_some_pos (decide_eq_true (congrArg List.length hchars))
  kind_mem := List.mem_singleton.mpr rfl

theorem Written.text_ofText (text : List Char) : (ofText text).text = String.ofList text := rfl

/-! ## Tokens -/

/-- The token of a text in quotes that stands behind another text. -/
def quotesToken (front text : List Char) : Token :=
  ⟨.string, String.ofList text, ⟨byteLength front, byteLength (front ++ escapeText text)⟩,
    .behind front⟩

namespace Scanner

variable {s : Scanner} {front rest : List Char}

/-- Within a line a text in quotes is one token. -/
theorem step_of_quotes (text : List Char) (howed : s.owed = [])
    (hline : ¬(s.atLineStart = true ∧ s.groups = 0))
    (hcursor : s.cursor = .behind front (escapeText text ++ rest)) :
    ∃ next, s.step = .emit (quotesToken front text) next ∧
      next.cursor = .behind (front ++ escapeText text) rest := by
  have hrest : s.cursor.rest = '"' :: (text.flatMap escapeChar ++ '"' :: rest) := by
    rw [hcursor, Cursor.rest_behind, escapeText_append]
  have hskip : s.cursor.skip (escapeText text).length =
      .behind (front ++ escapeText text) rest := by
    rw [hcursor, Cursor.skip_behind, List.take_left, List.drop_left]
  have hstep : s.step = s.emitLexeme ⟨.string, (escapeText text).length, some text⟩ := by
    have htrivia (others : List Char) :
        triviaWidth s.lineHasToken ('"' :: others) = 0 := rfl
    unfold step
    rw [howed, hrest]
    dsimp only
    rw [if_neg hline, htrivia, if_neg (Nat.lt_irrefl 0), if_neg (by decide), scan_escapeText]
  rw [emitLexeme, hskip, hcursor] at hstep
  exact ⟨_, hstep, rfl⟩

theorem startLine_of_quotes (text : List Char)
    (hcursor : s.cursor = .behind front (escapeText text ++ rest)) :
    s.startLine = { s with
      levels := (relevel 0 s.levels).1
      owed := (relevel 0 s.levels).2
      atLineStart := false } := by
  have hrest : s.cursor.rest = '"' :: (text.flatMap escapeChar ++ '"' :: rest) := by
    rw [hcursor, Cursor.rest_behind, escapeText_append]
  unfold startLine
  rw [hrest, lineHead_cons (by decide) (by decide) (by decide) (by decide),
    indentation_cons (by decide)]
  rfl

/-- Wherever the scanner comes to a text in quotes, the layout that is due there is followed by
one token for it, and nothing of what stands behind it is read. -/
theorem emits_quotes (text : List Char)
    (hcursor : s.cursor = .behind front (escapeText text ++ rest)) :
    ∃ marks next, Emits s (marks ++ [quotesToken front text]) next ∧
      marks.map Token.kind =
        s.owed ++ (if s.atLineStart = true ∧ s.groups = 0 then (relevel 0 s.levels).2 else []) ∧
      next.cursor = .behind (front ++ escapeText text) rest := by
  have hrun := emits_settled s
  by_cases hline : s.atLineStart = true ∧ s.groups = 0
  · have hstart := step_of_lineStart (s := s.settled) rfl hline.1 hline.2
    rw [startLine_of_quotes text (s := s.settled) hcursor] at hstart
    have hdedents := emits_settled { s.settled with
      levels := (relevel 0 s.levels).1
      owed := (relevel 0 s.levels).2
      atLineStart := false }
    obtain ⟨next, hstep, hnext⟩ := step_of_quotes text (s := settled { s.settled with
      levels := (relevel 0 s.levels).1
      owed := (relevel 0 s.levels).2
      atLineStart := false }) rfl (by simp [settled]) hcursor
    refine ⟨s.owed.map s.mark ++ (relevel 0 s.levels).2.map s.mark, next, ?_, ?_, hnext⟩
    · rw [List.append_assoc]
      exact hrun.append (.skip hstart (hdedents.append (.emit hstep (.refl next))))
    · rw [List.map_append, kinds_owed, if_pos hline, List.map_map]
      exact congrArg _ (List.map_id _)
  · obtain ⟨next, hstep, hnext⟩ := step_of_quotes text (s := s.settled) rfl hline hcursor
    refine ⟨s.owed.map s.mark, next, hrun.append (.emit hstep (.refl next)), ?_, hnext⟩
    rw [kinds_owed, if_neg hline, List.append_nil]

end Scanner

end SceneLang
