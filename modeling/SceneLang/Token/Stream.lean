import SceneLang.Token.Lexeme
import SceneLang.Text.Slice

/-!
# The token stream of a text

The scanner walks over the characters once.  At the start of every line outside of round
and square brackets it compares the indentation with the open levels and owes the stream the
layout tokens that follow from it.  A step emits one token, or steps over something that is
no token, or finishes; each step lowers `Scanner.measure`, so the stream is finite.
-/

namespace SceneLang

/-- A place in a text: what is still to be read, and where it starts. -/
structure Cursor where
  rest : List Char
  offset : Nat
  position : Position
deriving Repr

namespace Cursor

def ofText (text : List Char) : Cursor := ⟨text, 0, .start⟩

def next (cursor : Cursor) : Cursor :=
  match cursor.rest with
  | [] => cursor
  | c :: rest =>
      { rest := rest
        offset := cursor.offset + c.utf8Size
        position :=
          if c = '\n' then ⟨cursor.position.line + 1, 1⟩
          else ⟨cursor.position.line, cursor.position.column + 1⟩ }

/-- The place `count` characters further on. -/
def skip : Nat → Cursor → Cursor
  | 0, cursor => cursor
  | count + 1, cursor => skip count cursor.next

@[simp] theorem rest_next (cursor : Cursor) : cursor.next.rest = cursor.rest.tail := by
  unfold next
  split <;> simp_all

@[simp] theorem rest_skip (count : Nat) (cursor : Cursor) :
    (cursor.skip count).rest = cursor.rest.drop count := by
  induction count generalizing cursor with
  | zero => rfl
  | succ count ih => simp [skip, ih]

end Cursor

def tabWidth : Nat := 4

/-- The state of the scanner between two tokens. -/
structure Scanner where
  cursor : Cursor
  /-- Widths of the open indentation levels, innermost first; the outermost level of width
  zero is left out. -/
  levels : List Nat
  /-- Layout tokens that the indentation of the line still asks for. -/
  owed : List TokenKind
  atLineStart : Bool
  lineHasToken : Bool
  groups : Nat
  afterValue : Bool
deriving Repr

namespace Scanner

def ofText (text : List Char) : Scanner where
  cursor := .ofText text
  levels := []
  owed := []
  atLineStart := true
  lineHasToken := false
  groups := 0
  afterValue := false

/-- What one step of the scanner does. -/
inductive Step where
  | emit (token : Token) (next : Scanner)
  | skip (next : Scanner)
  | finish (token : Token)

/-- A token between the characters, at the place of the cursor. -/
def mark (s : Scanner) (kind : TokenKind) : Token :=
  ⟨kind, "", .point s.cursor.offset, s.cursor.position⟩

/-- The width of leading blanks; a carriage return has none. -/
def indentation : List Char → Nat
  | [] => 0
  | c :: rest =>
      if c = ' ' then indentation rest + 1
      else if c = '\t' then indentation rest + tabWidth
      else if c = '\r' then indentation rest
      else 0

/-- The levels that are open behind an indentation of this width, and the layout tokens
that lead there.  A width between two open levels opens a level of its own. -/
def relevel (width : Nat) (levels : List Nat) : List Nat × List TokenKind :=
  let kept := levels.dropWhile (width < ·)
  let closed := List.replicate (levels.takeWhile (width < ·)).length TokenKind.dedent
  if kept.headD 0 < width then (width :: kept, closed ++ [.indent]) else (kept, closed)

/-- Blanks and comments at the start of a line: how many characters, and whether the line
holds anything else.  Only one block comment is looked through. -/
def lineHead (text : List Char) : Nat × Bool :=
  let blanks := (text.takeWhile Lexeme.isInlineBlank).length
  match text.drop blanks with
  | [] => (blanks, false)
  | '\n' :: _ => (blanks, false)
  | '#' :: rest => (blanks + 1 + Lexeme.lineWidth rest, false)
  | '/' :: '/' :: rest => (blanks + 2 + Lexeme.lineWidth rest, false)
  | '/' :: '*' :: rest =>
      let comment := Lexeme.blockWidth rest
      let after := rest.drop comment
      let more := (after.takeWhile Lexeme.isInlineBlank).length
      let ends := after.drop more = [] ∨ (after.drop more).head? = some '\n'
      (blanks + 2 + comment + more, !ends)
  | _ => (blanks, true)

def startLine (s : Scanner) : Scanner :=
  let (width, holdsMore) := lineHead s.cursor.rest
  let moved := { s with cursor := s.cursor.skip width, atLineStart := false }
  if holdsMore then
    let (levels, owed) := relevel (indentation s.cursor.rest) s.levels
    { moved with levels := levels, owed := owed }
  else moved

/-- At the end of the text: end the last line, close every level, then finish. -/
def close (s : Scanner) : Step :=
  if s.lineHasToken then
    .emit (s.mark .newline) { s with lineHasToken := false, afterValue := false }
  else
    match s.levels with
    | _ :: outer => .emit (s.mark .dedent) { s with levels := outer, afterValue := false }
    | [] => .finish (s.mark .eof)

/-- A line break.  It is a token only behind other tokens and outside of brackets. -/
def breakLine (s : Scanner) : Step :=
  let after := s.cursor.next
  if 0 < s.groups then .skip { s with cursor := after }
  else if s.lineHasToken then
    .emit ⟨.newline, "\n", ⟨s.cursor.offset, after.offset⟩, s.cursor.position⟩
      { s with cursor := after, atLineStart := true, lineHasToken := false, afterValue := false }
  else .skip { s with cursor := after, atLineStart := true }

/-- Brackets that are open behind a token of this kind. -/
def groupsAfter (kind : TokenKind) (groups : Nat) : Nat :=
  match kind with
  | .leftParen | .leftBracket => groups + 1
  | .rightParen | .rightBracket => groups - 1
  | _ => groups

def emitLexeme (s : Scanner) (lexeme : Lexeme) : Step :=
  let after := s.cursor.skip lexeme.width
  let text := lexeme.contents.getD (s.cursor.rest.take lexeme.width)
  .emit ⟨lexeme.kind, String.ofList text, ⟨s.cursor.offset, after.offset⟩, s.cursor.position⟩
    { s with
      cursor := after
      groups := groupsAfter lexeme.kind s.groups
      lineHasToken := true
      afterValue := lexeme.kind.endsValue }

def step (s : Scanner) : Step :=
  match s.owed with
  | kind :: owed => .emit (s.mark kind) { s with owed := owed, afterValue := false }
  | [] =>
      if s.atLineStart ∧ s.groups = 0 then .skip s.startLine
      else
        match s.cursor.rest with
        | [] => s.close
        | c :: rest =>
            let trivia := Lexeme.triviaWidth s.lineHasToken (c :: rest)
            if 0 < trivia then .skip { s with cursor := s.cursor.skip trivia }
            else if c = '\n' then s.breakLine
            else
              match Lexeme.scan s.afterValue c rest with
              | none => .skip { s with cursor := s.cursor.next }
              | some lexeme => s.emitLexeme lexeme

/-! ## Every step makes progress -/

/-- Four for a character to be read, three for a line to be started, one for every token
that is owed, for every open level and for a line that has to be ended. -/
def measure (s : Scanner) : Nat :=
  4 * s.cursor.rest.length + (if s.atLineStart then 3 else 0) + s.levels.length +
    s.owed.length + (if s.lineHasToken then 1 else 0)

theorem relevel_length (width : Nat) (levels : List Nat) :
    (relevel width levels).1.length + (relevel width levels).2.length ≤ levels.length + 2 := by
  have hsplit := congrArg List.length (List.takeWhile_append_dropWhile
    (p := fun level => decide (width < level)) (l := levels))
  simp only [List.length_append] at hsplit
  unfold relevel
  simp only
  split <;> simp only [List.length_cons, List.length_append, List.length_replicate,
    List.length_nil] <;> omega

theorem measure_startLine {s : Scanner} (howed : s.owed = []) (hstart : s.atLineStart = true) :
    s.startLine.measure < s.measure := by
  have hlevels := relevel_length (indentation s.cursor.rest) s.levels
  simp only [startLine, measure, howed, hstart]
  split <;>
    simp only [Cursor.rest_skip, List.length_drop, List.length_nil, Bool.false_eq_true,
      if_true, if_false] <;> omega

theorem Lexeme.width_pos_of_scan {afterValue : Bool} {c : Char} {rest : List Char}
    {lexeme : Lexeme} (h : Lexeme.scan afterValue c rest = some lexeme) : 0 < lexeme.width := by
  unfold Lexeme.scan at h
  simp only at h
  split at h
  · simp only [Option.some.injEq] at h
    subst h
    exact Nat.succ_pos _
  split at h
  · simp only [Option.some.injEq] at h
    subst h
    split <;> exact Nat.succ_pos _
  split at h
  · simp only [Option.some.injEq] at h
    subst h
    exact Nat.succ_pos _
  split at h
  next hdigit =>
    simp only [Option.some.injEq] at h
    subst h
    simp only [Lexeme.plain, Lexeme.numberWidth, Lexeme.digitsWidth, List.takeWhile_cons, hdigit,
      if_true, List.length_cons]
    omega
  split at h
  · simp only [Option.some.injEq] at h
    subst h
    simp [Lexeme.name, Lexeme.plain]
  unfold Lexeme.symbol? at h
  simp only at h
  split at h <;> first
    | (simp only [Option.some.injEq] at h; subst h; repeat' split) <;> exact Nat.succ_pos _
    | (split at h <;> simp only [Option.some.injEq, reduceCtorEq] at h <;> subst h <;>
        exact Nat.succ_pos _)
    | simp at h

/-- Does the step lead to a state below a bound? -/
def Step.Below (bound : Nat) : Step → Prop
  | .emit _ next => next.measure < bound
  | .skip next => next.measure < bound
  | .finish _ => True

theorem step_below (s : Scanner) : s.step.Below s.measure := by
  unfold step
  split
  next kind owed howed =>
      simp only [Step.Below, measure, howed, List.length_cons]
      omega
  next howed =>
  split
  next hstart => exact measure_startLine howed hstart.1
  next hstart =>
  split
  next hrest =>
    unfold close
    split
    next hline =>
        simp only [Step.Below, measure, hline, if_true, Bool.false_eq_true, if_false]
        omega
    next hline =>
      split
      next level outer hlevels =>
          simp only [Step.Below, measure, hlevels, List.length_cons]
          omega
      next => trivial
  next c rest hrest =>
  simp only
  split
  next htrivia =>
    simp only [Step.Below, measure, Cursor.rest_skip, List.length_drop, hrest, List.length_cons]
    omega
  next htrivia =>
  split
  next hbreak =>
    unfold breakLine
    simp only
    split
    · simp only [Step.Below, measure, Cursor.rest_next, hrest, List.tail_cons, List.length_cons]
      omega
    split
    next hline =>
        simp only [Step.Below, measure, Cursor.rest_next, hrest, hline, List.tail_cons,
          List.length_cons, if_true, Bool.false_eq_true, if_false]
        split <;> omega
    · simp only [Step.Below, measure, Cursor.rest_next, hrest, List.tail_cons, List.length_cons,
        if_true]
      split <;> split <;> omega
  next hbreak =>
  split
  · simp only [Step.Below, measure, Cursor.rest_next, hrest, List.tail_cons, List.length_cons]
    omega
  next lexeme hscan =>
    have hwidth := Lexeme.width_pos_of_scan hscan
    simp only [emitLexeme, Step.Below, measure, Cursor.rest_skip, List.length_drop, hrest, List.length_cons,
      if_true]
    split <;> omega

theorem measure_emit {s next : Scanner} {token : Token} (h : s.step = .emit token next) :
    next.measure < s.measure := by
  have hstep := step_below s
  rw [h] at hstep
  exact hstep

theorem measure_skip {s next : Scanner} (h : s.step = .skip next) :
    next.measure < s.measure := by
  have hstep := step_below s
  rw [h] at hstep
  exact hstep

/-- The tokens from a state of the scanner to the end of the text. -/
def tokens (s : Scanner) : List Token :=
  match _hstep : s.step with
  | .emit token next => token :: next.tokens
  | .skip next => next.tokens
  | .finish token => [token]
termination_by s.measure
decreasing_by
  · exact measure_emit _hstep
  · exact measure_skip _hstep

end Scanner

def tokenize (text : List Char) : List Token :=
  (Scanner.ofText text).tokens

end SceneLang
