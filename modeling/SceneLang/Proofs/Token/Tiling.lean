import SceneLang.Proofs.Token.Steps
import Mathlib.Data.List.Infix
import Mathlib.Data.List.TakeWhile

/-!
# Tokens tile a text

Every character of a text belongs to one token, or to a stretch between tokens: blanks, a line
break, a comment, or a character that starts no token.  `Tiles` lays these pieces side by side,
behind the part of the text that has been read, as the scanner does step by step; spans,
positions and texts of tokens are read off it.
-/

namespace SceneLang

/-! ## Pieces of a text -/

namespace Token

/-- Is the text of such a token the stretch of the text that it stands for? -/
def isVerbatim : TokenKind → Bool
  | .string | .unterminatedString | .interpolation => false
  | _ => true

/-- The token stands for these characters behind a text. -/
structure Covers (front inside : List Char) (token : Token) : Prop where
  span : token.span = ⟨Text.byteLength front, Text.byteLength (front ++ inside)⟩
  position : token.position = .behind front
  text : isVerbatim token.kind = true → token.text = String.ofList inside

end Token

namespace Lexeme

/-- A comment, and what follows it: up to the end of the line, or a block up to its first end
or, if it has none, to the end of the text. -/
inductive IsComment : List Char → List Char → Prop
  | line {mark body rest : List Char} (hmark : mark = ['#'] ∨ mark = ['/', '/'])
      (hbody : '\n' ∉ body) (hrest : rest = [] ∨ rest.head? = some '\n') :
      IsComment (mark ++ body) rest
  | block {body rest : List Char} (hbody : ¬['*', '/'] <:+: body ++ ['*']) :
      IsComment (['/', '*'] ++ body ++ ['*', '/']) rest
  | openBlock {body : List Char} (hbody : ¬['*', '/'] <:+: body) :
      IsComment (['/', '*'] ++ body) []

/-- A stretch between tokens, and what follows it. -/
inductive Filler : List Char → List Char → Prop
  | blanks {inside rest : List Char} (hblank : ∀ c ∈ inside, isInlineBlank c = true) :
      Filler inside rest
  | lineBreak (rest : List Char) : Filler ['\n'] rest
  | comment {inside rest : List Char} (hcomment : IsComment inside rest) : Filler inside rest
  | ignored {c : Char} {rest : List Char} (hscan : ∀ afterValue, scan afterValue c rest = none) :
      Filler [c] rest

/-! ## What trivia is made of -/

theorem take_length_takeWhile (p : Char → Bool) (text : List Char) :
    text.take (text.takeWhile p).length = text.takeWhile p :=
  (List.prefix_iff_eq_take.mp (List.takeWhile_prefix p)).symm

theorem drop_length_takeWhile (p : Char → Bool) (text : List Char) :
    text.drop (text.takeWhile p).length = text.dropWhile p := by
  have hsplit := List.take_append_drop (text.takeWhile p).length text
  rw [take_length_takeWhile] at hsplit
  exact List.append_cancel_left (hsplit.trans List.takeWhile_append_dropWhile.symm)

theorem isComment_line {mark : List Char} (hmark : mark = ['#'] ∨ mark = ['/', '/'])
    (rest : List Char) :
    IsComment (mark ++ rest.take (lineWidth rest)) (rest.drop (lineWidth rest)) := by
  rw [lineWidth, take_length_takeWhile, drop_length_takeWhile]
  refine .line hmark (fun hmem => ?_) ?_
  · simpa using List.mem_takeWhile_imp hmem
  · have hhead := List.head?_dropWhile_not (fun c => decide (c ≠ '\n')) rest
    cases hdrop : rest.dropWhile (fun c => decide (c ≠ '\n')) with
    | nil => exact .inl rfl
    | cons c others =>
        rw [hdrop] at hhead
        exact .inr (by simpa using hhead)

/-- A block comment ends behind the first end mark, or goes on to the end of the text. -/
theorem blockWidth_cases (rest : List Char) :
    (∃ body, rest.take (blockWidth rest) = body ++ ['*', '/'] ∧ ¬['*', '/'] <:+: body ++ ['*']) ∨
      rest.take (blockWidth rest) = rest ∧ ¬['*', '/'] <:+: rest := by
  fun_induction blockWidth rest with
  | case1 => exact .inr ⟨rfl, by decide⟩
  | case2 rest => exact .inl ⟨[], rfl, by decide⟩
  | case3 c rest hmark ih =>
      -- The character before the rest starts no end mark, so the first one is that of the rest.
      obtain ⟨body, htake, hbody⟩ | ⟨htake, hbody⟩ := ih
      · refine .inl ⟨c :: body, by rw [List.take_succ_cons, htake, List.cons_append], ?_⟩
        rw [List.cons_append, List.infix_cons_iff]
        rintro (hhead | hinfix)
        · obtain ⟨hc, htail⟩ := List.cons_prefix_cons.mp hhead
          cases body with
          | nil => exact absurd htail (by decide)
          | cons d body =>
              obtain ⟨rfl, _⟩ := List.cons_prefix_cons.mp htail
              obtain ⟨others, hrest⟩ := htake ▸ List.take_prefix (blockWidth rest) rest
              exact hmark _ hc.symm hrest.symm
        · exact hbody hinfix
      · refine .inr ⟨by rw [List.take_succ_cons, htake], ?_⟩
        rw [List.infix_cons_iff]
        rintro (hhead | hinfix)
        · obtain ⟨hc, tail, htail⟩ := List.cons_prefix_cons.mp hhead
          exact hmark tail hc.symm htail.symm
        · exact hbody hinfix

theorem isComment_block (rest : List Char) :
    IsComment (['/', '*'] ++ rest.take (blockWidth rest)) (rest.drop (blockWidth rest)) := by
  obtain ⟨body, htake, hbody⟩ | ⟨htake, hbody⟩ := blockWidth_cases rest
  · rw [htake, ← List.append_assoc]
    exact .block hbody
  · have hdrop : rest.drop (blockWidth rest) = [] := by
      have hsplit := List.take_append_drop (blockWidth rest) rest
      rw [htake] at hsplit
      exact List.append_right_eq_self.mp hsplit
    rw [htake, hdrop]
    exact .openBlock hbody

theorem filler_trivia (lineHasToken : Bool) (text : List Char) :
    Filler (text.take (triviaWidth lineHasToken text))
      (text.drop (triviaWidth lineHasToken text)) := by
  have hnone : Filler (text.take 0) (text.drop 0) := .blanks (by simp)
  unfold triviaWidth
  split
  next rest => exact .comment (isComment_line (.inr rfl) rest)
  next rest => exact .comment (isComment_block rest)
  next rest =>
      split
      · exact hnone
      · exact .comment (isComment_line (.inl rfl) rest)
  next c rest _ _ _ =>
      split
      next hblank => exact .blanks (by simpa using hblank)
      next => exact hnone
  next => exact hnone

/-- Whether a character starts a token does not depend on what stands before it. -/
theorem scan_eq_none {afterValue : Bool} {c : Char} {rest : List Char}
    (h : scan afterValue c rest = none) (other : Bool) : scan other c rest = none := by
  unfold scan at h ⊢
  dsimp only at h ⊢
  split at h
  · contradiction
  split
  next hminus =>
    obtain ⟨rfl, _⟩ := hminus
    rw [if_neg (by decide), if_neg (by simp), if_neg (by decide), if_neg (by decide)] at h
    simp [symbol?] at h
  · exact h

end Lexeme

/-! ## Tilings -/

open Lexeme (Filler)

/-- Behind a text that has been read, these tokens and stretches between them make up the
rest. -/
inductive Tiles : List Char → List Char → List Token → Prop
  | done (front : List Char) : Tiles front [] []
  | token {front inside rest : List Char} {token : Token} {tokens : List Token}
      (hcovers : token.Covers front inside) (hrest : Tiles (front ++ inside) rest tokens) :
      Tiles front (inside ++ rest) (token :: tokens)
  | filler {front inside rest : List Char} {tokens : List Token} (hfiller : Filler inside rest)
      (hrest : Tiles (front ++ inside) rest tokens) : Tiles front (inside ++ rest) tokens

/-- Stretches between tokens make up the head of a text. -/
def Skippable (text : List Char) (width : Nat) : Prop :=
  ∀ front tokens, Tiles (front ++ text.take width) (text.drop width) tokens →
    Tiles front text tokens

namespace Skippable

variable {text : List Char} {width more : Nat}

theorem filler (h : Filler (text.take width) (text.drop width)) : Skippable text width := by
  intro front tokens hrest
  have htiles := Tiles.filler h hrest
  rwa [List.take_append_drop] at htiles

theorem add (h : Skippable text width) (hmore : Skippable (text.drop width) more) :
    Skippable text (width + more) := by
  intro front tokens hrest
  apply h
  apply hmore
  rwa [List.append_assoc, ← List.take_add, List.drop_drop]

theorem blanks (text : List Char) :
    Skippable text (text.takeWhile Lexeme.isInlineBlank).length := by
  apply filler
  rw [Lexeme.take_length_takeWhile]
  exact .blanks fun c => List.mem_takeWhile_imp

end Skippable

namespace Scanner

variable {s next : Scanner} {token : Token} {front rest : List Char}

/-! ## Every step lays pieces -/

theorem skippable_lineHead (text : List Char) : Skippable text (lineHead text).1 := by
  have hblanks := Skippable.blanks text
  unfold lineHead
  dsimp only
  split
  next => exact hblanks
  next => exact hblanks
  next rest hrest =>
      rw [Nat.add_assoc]
      refine hblanks.add (.filler ?_)
      rw [hrest, Nat.add_comm]
      exact .comment (Lexeme.isComment_line (.inl rfl) rest)
  next rest hrest =>
      rw [Nat.add_assoc]
      refine hblanks.add (.filler ?_)
      rw [hrest, Nat.add_comm]
      exact .comment (Lexeme.isComment_line (.inr rfl) rest)
  next rest hrest =>
      rw [Nat.add_assoc, Nat.add_assoc]
      refine hblanks.add ?_
      rw [hrest, ← Nat.add_assoc, Nat.add_comm 2]
      exact Skippable.add (.filler (.comment (Lexeme.isComment_block rest)))
        (Skippable.blanks (rest.drop (Lexeme.blockWidth rest)))
  next => exact hblanks

theorem exists_skippable (hstep : s.step = .skip next) :
    ∃ width, next.cursor = s.cursor.skip width ∧ Skippable s.cursor.rest width := by
  have hmoves := hstep ▸ moves_step s
  cases hmoves with
  | startLine => exact ⟨_, cursor_startLine s, skippable_lineHead s.cursor.rest⟩
  | trivia _ hrest =>
      rw [hrest]
      exact ⟨_, rfl, .filler (Lexeme.filler_trivia _ _)⟩
  | joinLines _ hrest | leaveLine _ hrest =>
      rw [hrest]
      exact ⟨1, rfl, .filler (.lineBreak _)⟩
  | ignore _ hrest _ hscan =>
      rw [hrest]
      exact ⟨1, rfl, .filler (.ignored (Lexeme.scan_eq_none hscan))⟩

theorem covers_mark (hcursor : s.cursor = .behind front rest) (kind : TokenKind) :
    (s.mark kind).Covers front [] where
  span := by
    rw [mark, hcursor, List.append_nil]
    rfl
  position := by
    rw [mark, hcursor]
    rfl
  text := fun _ => rfl

theorem covers_of_emit (hstep : s.step = .emit token next)
    (hcursor : s.cursor = .behind front rest) :
    ∃ width, next.cursor = s.cursor.skip width ∧ token.Covers front (rest.take width) := by
  have hmoves := hstep ▸ moves_step s
  cases hmoves with
  | owed | endLine | endLevel => exact ⟨0, rfl, covers_mark hcursor _⟩
  | breakLine _ hrest =>
      rw [hcursor, Cursor.rest_behind] at hrest
      rw [hrest] at hcursor ⊢
      refine ⟨1, rfl, ?_, ?_, fun _ => rfl⟩
      · rw [hcursor, Cursor.next_behind]
        rfl
      · rw [hcursor]
        rfl
  | @lexeme _ _ lexeme _ _ _ hscan =>
      refine ⟨lexeme.width, rfl, ?_, ?_, ?_⟩
      · dsimp only
        rw [hcursor, Cursor.skip_behind]
        rfl
      · rw [hcursor]
        rfl
      · intro hverbatim
        change Token.isVerbatim lexeme.kind = true at hverbatim
        obtain hkind | hkind | hkind | ⟨kind, width, rfl, _⟩ := Lexeme.scan_cases hscan
        · rw [hkind] at hverbatim
          contradiction
        · rw [hkind] at hverbatim
          contradiction
        · rw [hkind] at hverbatim
          contradiction
        · dsimp only
          rw [hcursor]
          rfl

/-- The tokens from a place to the end tile what lies between. -/
theorem tiles_tokens (hcursor : s.cursor = .behind front rest) : Tiles front rest s.tokens := by
  induction s using Scanner.tokens.induct generalizing front rest with
  | case1 s token next hstep ih =>
      obtain ⟨width, hnext, hcovers⟩ := covers_of_emit hstep hcursor
      rw [hcursor, Cursor.skip_behind] at hnext
      rw [tokens_of_emit hstep, ← List.take_append_drop width rest]
      exact .token hcovers (ih hnext)
  | case2 s next hstep ih =>
      obtain ⟨width, hnext, hskippable⟩ := exists_skippable hstep
      rw [hcursor, Cursor.skip_behind] at hnext
      rw [hcursor, Cursor.rest_behind] at hskippable
      rw [tokens_of_skip hstep]
      exact hskippable front next.tokens (ih hnext)
  | case3 s token hstep =>
      rw [tokens_of_finish hstep]
      have hmoves := hstep ▸ moves_step s
      cases hmoves with
      | finish _ hrest =>
          rw [hcursor, Cursor.rest_behind] at hrest
          rw [hrest] at hcursor ⊢
          exact .token (covers_mark hcursor _) (.done _)

end Scanner

/-! ## What a tiling says -/

/-- What a character outside of all tokens is.  It stands `gap` behind a text, and a comment
that it belongs to starts behind that text too and is touched by no token. -/
inductive Unclaimed (tokens : List Token) (front gap : List Char) (c : Char) (back : List Char) :
    Prop
  | blank (hblank : Lexeme.isInlineBlank c = true)
  | lineBreak (hbreak : c = '\n')
  | comment {before start stop after : List Char} (hgap : gap = before ++ start)
      (hback : back = stop ++ after) (hcomment : Lexeme.IsComment (start ++ c :: stop) after)
      (hclear : ∀ token ∈ tokens, token.span.stop ≤ Text.byteLength (front ++ before) ∨
        Text.byteLength (front ++ before ++ (start ++ c :: stop)) ≤ token.span.start)
  | ignored (hscan : ∀ afterValue, Lexeme.scan afterValue c back = none)

/-- The same character, seen from further ahead and among the tokens before it. -/
theorem Unclaimed.back {tokens all : List Token} {front inside gap back : List Char} {c : Char}
    (h : Unclaimed tokens (front ++ inside) gap c back)
    (hall : ∀ token ∈ all,
      token ∈ tokens ∨ token.span.stop ≤ Text.byteLength (front ++ inside)) :
    Unclaimed all front (inside ++ gap) c back := by
  cases h with
  | blank hblank => exact .blank hblank
  | lineBreak hbreak => exact .lineBreak hbreak
  | ignored hscan => exact .ignored hscan
  | comment hgap hback hcomment hclear =>
      refine .comment (by rw [hgap, List.append_assoc]) hback hcomment fun token hmem => ?_
      rw [← List.append_assoc]
      obtain hmem | hstop := hall token hmem
      · exact hclear token hmem
      · rw [Text.byteLength_append (front ++ inside)]
        exact .inl (Nat.le_trans hstop (Nat.le_add_right _ _))

/-- A character of a stretch between tokens, with the tokens behind the stretch. -/
theorem Lexeme.Filler.unclaimed {tokens : List Token} {front gap stop rest : List Char} {c : Char}
    (h : Filler (gap ++ c :: stop) rest)
    (hstart : ∀ token ∈ tokens,
      Text.byteLength (front ++ (gap ++ c :: stop)) ≤ token.span.start) :
    Unclaimed tokens front gap c (stop ++ rest) := by
  generalize hinside : gap ++ c :: stop = inside at h
  cases h with
  | blanks hblank => exact .blank (hblank c (by simp [← hinside]))
  | lineBreak =>
      obtain ⟨rfl, hinside⟩ | ⟨tail, _, htail⟩ := List.append_eq_cons_iff.mp hinside
      · exact .lineBreak (List.cons.inj hinside).1
      · simp at htail
  | comment hcomment =>
      subst hinside
      refine .comment (List.nil_append gap).symm rfl hcomment fun token hmem => .inr ?_
      rw [List.append_nil]
      exact hstart token hmem
  | ignored hscan =>
      obtain ⟨rfl, hinside⟩ | ⟨tail, _, htail⟩ := List.append_eq_cons_iff.mp hinside
      · obtain ⟨rfl, rfl⟩ := List.cons.inj hinside
        exact .ignored hscan
      · simp at htail

namespace Tiles

variable {front rest : List Char} {tokens : List Token}

theorem exists_covers (h : Tiles front rest tokens) : ∀ token ∈ tokens,
    ∃ gap inside after, rest = gap ++ inside ++ after ∧ token.Covers (front ++ gap) inside := by
  induction h with
  | done => simp
  | @token front inside rest first tokens hcovers _ ih =>
      intro token hmem
      obtain rfl | hmem := List.mem_cons.mp hmem
      · exact ⟨[], inside, rest, rfl, by rwa [List.append_nil]⟩
      · obtain ⟨gap, inside', after, rfl, hcovers'⟩ := ih token hmem
        refine ⟨inside ++ gap, inside', after, by simp only [List.append_assoc], ?_⟩
        rwa [← List.append_assoc]
  | @filler front inside rest tokens _ _ ih =>
      intro token hmem
      obtain ⟨gap, inside', after, rfl, hcovers'⟩ := ih token hmem
      refine ⟨inside ++ gap, inside', after, by simp only [List.append_assoc], ?_⟩
      rwa [← List.append_assoc]

/-- No token of the rest starts in what lies before it. -/
theorem start_le (h : Tiles front rest tokens) {token : Token} (hmem : token ∈ tokens) :
    Text.byteLength front ≤ token.span.start := by
  obtain ⟨gap, inside, after, _, hcovers⟩ := h.exists_covers token hmem
  rw [hcovers.span, Text.byteLength_append]
  exact Nat.le_add_right _ _

theorem ordered (h : Tiles front rest tokens) :
    tokens.Pairwise fun a b => a.span.stop ≤ b.span.start := by
  induction h with
  | done => exact .nil
  | token hcovers hrest ih =>
      refine .cons (fun other hmem => ?_) ih
      rw [hcovers.span]
      exact hrest.start_le hmem
  | filler _ _ ih => exact ih

/-- Where a character of a text stands that starts with one of its pieces: in that piece or
behind it. -/
theorem piece_or_rest {inside rest gap back : List Char} {c : Char}
    (h : inside ++ rest = gap ++ c :: back) :
    (∃ stop, inside = gap ++ c :: stop ∧ back = stop ++ rest) ∨
      ∃ gap', gap = inside ++ gap' ∧ rest = gap' ++ c :: back := by
  obtain ⟨gap', hgap, hrest⟩ | ⟨start, hinside, hback⟩ := List.append_eq_append_iff.mp h
  · exact .inr ⟨gap', hgap, hrest⟩
  · cases start with
    | nil => exact .inr ⟨[], by simpa using hinside.symm, by simpa using hback.symm⟩
    | cons d stop =>
        obtain ⟨rfl, rfl⟩ := List.cons.inj hback
        exact .inl ⟨stop, hinside, rfl⟩

/-- A character of the rest that lies in no token. -/
theorem unclaimed (h : Tiles front rest tokens) {gap back : List Char} {c : Char}
    (hrest : rest = gap ++ c :: back)
    (houtside : ∀ token ∈ tokens, ¬(token.span.start ≤ Text.byteLength (front ++ gap) ∧
      Text.byteLength (front ++ gap) < token.span.stop)) :
    Unclaimed tokens front gap c back := by
  induction h generalizing gap with
  | done => simp at hrest
  | @token front inside rest token tokens hcovers htiles ih =>
      obtain ⟨stop, rfl, rfl⟩ | ⟨gap, rfl, rfl⟩ := piece_or_rest hrest
      · have hsize := Char.utf8Size_pos c
        refine absurd ?_ (houtside token List.mem_cons_self)
        simp only [hcovers.span, Text.byteLength_append, Text.byteLength_cons]
        omega
      · rw [← List.append_assoc] at houtside
        have hlater := ih rfl fun other hmem => houtside other (List.mem_cons_of_mem _ hmem)
        refine hlater.back fun other hmem => ?_
        obtain rfl | hmem := List.mem_cons.mp hmem
        · exact .inr (by rw [hcovers.span])
        · exact .inl hmem
  | @filler front inside rest tokens hfiller htiles ih =>
      obtain ⟨stop, rfl, rfl⟩ | ⟨gap, rfl, rfl⟩ := piece_or_rest hrest
      · exact hfiller.unclaimed fun token hmem => htiles.start_le hmem
      · rw [← List.append_assoc] at houtside
        exact (ih rfl houtside).back fun other hmem => .inl hmem

end Tiles

/-- Every token stands for a stretch of the text, which gives its span, its position and, unless
it is quoted or an interpolation, its text; these stretches follow each other; and what lies
between them is blank, a comment, or starts no token. -/
theorem tokenize_tiles (text : List Char) :
    (∀ token ∈ tokenize text, ∃ front inside back, text = front ++ inside ++ back ∧
      token.Covers front inside) ∧
    (tokenize text).Pairwise (fun a b => a.span.stop ≤ b.span.start) ∧
    ∀ front c back, text = front ++ c :: back →
      (∀ token ∈ tokenize text, ¬(token.span.start ≤ Text.byteLength front ∧
        Text.byteLength front < token.span.stop)) →
      Unclaimed (tokenize text) [] front c back := by
  have htiles : Tiles [] text (tokenize text) := Scanner.tiles_tokens rfl
  exact ⟨htiles.exists_covers, htiles.ordered, fun front c back => htiles.unclaimed⟩

end SceneLang
