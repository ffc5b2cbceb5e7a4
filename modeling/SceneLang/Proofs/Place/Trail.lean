import SceneLang.Proofs.Margins.Texts
import SceneLang.Proofs.Origin.Reports
import SceneLang.Proofs.Parser.Makes
import SceneLang.Proofs.Parser.Reports
import SceneLang.Proofs.Token.Tiling

/-!
# How far a parse has come

The tokens of a text are those that have been read and those ahead, and the token read last is the
last one that is not layout.  A place has been passed if it is not behind the end of a token that
has been read: once passed it stays behind, so that all tokens ahead start there or further on.
-/

namespace SceneLang

/-! ## The order of places

The end of a token is counted from its start, one column for each character.  It never lies behind
the place that the text of the token leads to, and is that place if the token stays on its line.
So no token starts before the end of another one in front of it.
-/

namespace Position

theorem behind_break (front : List Char) :
    behind (front ++ ['\n']) = ⟨(behind front).line + 1, 1⟩ := by
  simp [behind]

theorem behind_char (front : List Char) {c : Char} (h : c ≠ '\n') :
    behind (front ++ [c]) = ⟨(behind front).line, (behind front).column + 1⟩ := by
  simp [behind, h]

/-- The place as many columns further on, on the same line. -/
def along (p : Position) (columns : Nat) : Position :=
  ⟨p.line, p.column + columns⟩

theorem le_along (p : Position) (columns : Nat) : p ≤ p.along columns :=
  .inr ⟨rfl, Nat.le_add_right _ _⟩

theorem along_behind_char (front : List Char) {c : Char} (h : c ≠ '\n') (columns : Nat) :
    (behind (front ++ [c])).along columns = (behind front).along (columns + 1) := by
  rw [behind_char front h, along, along, Nat.add_assoc, Nat.add_comm 1]

/-- A text leads at least as far as its characters do on one line. -/
theorem along_le_behind (front inside : List Char) :
    (behind front).along inside.length ≤ behind (front ++ inside) := by
  induction inside generalizing front with
  | nil => rw [List.append_nil]; exact le_refl _
  | cons c rest ih =>
      have hrest := ih (front ++ [c])
      rw [List.append_assoc, List.singleton_append] at hrest
      by_cases hbreak : c = '\n'
      · subst hbreak
        have hline : (behind front).line < (behind (front ++ ['\n'])).line := by
          rw [behind_break]
          exact Nat.lt_succ_self _
        refine le_trans ?_ hrest
        exact .inl hline
      · rwa [along_behind_char front hbreak] at hrest

theorem behind_le_behind (front inside : List Char) : behind front ≤ behind (front ++ inside) :=
  le_trans (le_along _ _) (along_le_behind front inside)

/-- On one line each character takes one column. -/
theorem behind_of_line (front : List Char) {inside : List Char} (h : '\n' ∉ inside) :
    behind (front ++ inside) = (behind front).along inside.length := by
  induction inside generalizing front with
  | nil => rw [List.append_nil]; rfl
  | cons c rest ih =>
      obtain ⟨hbreak, hrest⟩ := not_or.mp (fun hor => h (List.mem_cons.mpr hor))
      have hbreak : c ≠ '\n' := fun heq => hbreak heq.symm
      rw [List.append_cons, ih _ hrest, along_behind_char front hbreak, List.length_cons]

theorem min_le_left (p q : Position) : min p q ≤ p := by
  change (if p ≤ q then p else q) ≤ p
  split
  · exact le_refl p
  next h => exact (le_total p q).resolve_left h

theorem le_max_left (p q : Position) : p ≤ max p q := by
  change p ≤ if p ≤ q then q else p
  split
  next h => exact h
  · exact le_refl p

theorem le_max_right (p q : Position) : q ≤ max p q := by
  change q ≤ if p ≤ q then q else p
  split
  · exact le_refl q
  next h => exact (le_total p q).resolve_left h

theorem max_eq_left {p q : Position} (h : q ≤ p) : max p q = p := by
  change (if p ≤ q then q else p) = p
  split
  next hle =>
    rw [le_def] at h hle
    obtain ⟨line, column⟩ := p
    obtain ⟨line', column'⟩ := q
    simp only at h hle
    congr 1 <;> omega
  · rfl

end Position

namespace Parser

variable {source front inside back : List Char} {token : Token}

theorem endOf_of_covers (h : token.Covers front inside)
    (hsource : source = front ++ inside ++ back) :
    endOf source (some token) = (Position.behind front).along inside.length := by
  subst hsource
  rw [endOf, h.span, h.position, List.append_assoc, Text.slice_between]
  rfl

/-- What a text comes to behind a token that stays on its line. -/
theorem endOf_of_line (h : token.Covers front inside) (hsource : source = front ++ inside ++ back)
    (hline : '\n' ∉ inside) : endOf source (some token) = .behind (front ++ inside) := by
  rw [endOf_of_covers h hsource, Position.behind_of_line front hline]

theorem endOf_le_behind (h : token.Covers front inside)
    (hsource : source = front ++ inside ++ back) :
    endOf source (some token) ≤ .behind (front ++ inside) := by
  rw [endOf_of_covers h hsource]
  exact Position.along_le_behind front inside

end Parser

namespace Tiles

variable {source front rest : List Char} {tokens : List Token}

theorem behind_le (h : Tiles front rest tokens) :
    ∀ token ∈ tokens, .behind front ≤ token.position := by
  intro token hmem
  obtain ⟨gap, inside, back, -, hcovers⟩ := h.exists_covers token hmem
  rw [hcovers.position]
  exact Position.behind_le_behind front gap

theorem apart (h : Tiles front rest tokens) (hsource : source = front ++ rest) :
    tokens.Pairwise fun a b => Parser.endOf source (some a) ≤ b.position := by
  induction h with
  | done => exact .nil
  | @token front inside rest token tokens hcovers hrest ih =>
      rw [← List.append_assoc] at hsource
      refine .cons (fun other hmem => ?_) (ih hsource)
      exact Position.le_trans (Parser.endOf_le_behind hcovers hsource) (hrest.behind_le other hmem)
  | filler _ _ ih =>
      rw [← List.append_assoc] at hsource
      exact ih hsource

end Tiles

namespace Parser

variable {source : List Char} {token : Token}

theorem exists_covers (hmem : token ∈ tokenize source) :
    ∃ front inside back, source = front ++ inside ++ back ∧ token.Covers front inside :=
  have htiles : Tiles [] source (tokenize source) := Scanner.tiles_tokens rfl
  htiles.exists_covers token hmem

theorem position_le_endOf (token : Token) : token.position ≤ endOf source (some token) :=
  Position.le_along _ _

/-- No token starts before the end of a token in front of it. -/
theorem endOf_le_position (source : List Char) :
    (tokenize source).Pairwise fun a b => endOf source (some a) ≤ b.position :=
  have htiles : Tiles [] source (tokenize source) := Scanner.tiles_tokens rfl
  htiles.apart rfl

end Parser
end SceneLang

namespace SceneLang
namespace Parser

variable {source : List Char} {front : List Token} {p q : Position}
  {state next : State}

/-! ## Tokens that have been read -/

/-- The last token that is not layout. -/
def lastPlain (tokens : List Token) : Option Token :=
  (tokens.filter fun token => !token.kind.isLayout).getLast?

theorem lastPlain_append (front back : List Token) :
    lastPlain (front ++ back) = (lastPlain back).or (lastPlain front) := by
  rw [lastPlain, List.filter_append, List.getLast?_append]
  rfl

theorem lastPlain_layout {tokens : List Token}
    (h : ∀ token ∈ tokens, token.kind.isLayout = true) : lastPlain tokens = none := by
  rw [lastPlain, List.getLast?_eq_none_iff, List.filter_eq_nil_iff]
  intro token hmem
  simp [h token hmem]

theorem lastPlain_singleton (token : Token) :
    lastPlain [token] = if token.kind.isLayout then none else some token := by
  cases hlayout : token.kind.isLayout <;> simp [lastPlain, hlayout]

theorem lastPlain_eq_some {tokens : List Token} {last : Token} (h : lastPlain tokens = some last) :
    last ∈ tokens ∧ last.kind.isLayout = false := by
  obtain ⟨hmem, hplain⟩ := List.mem_filter.mp (List.mem_of_getLast? h)
  exact ⟨hmem, by simpa using hplain⟩

/-- These tokens of the text have been read, maybe with others behind them. -/
def Beyond (source : List Char) (front : List Token) (state : State) : Prop :=
  ∃ inner, tokenize source = front ++ inner ++ state.ahead ∧
    state.previous = lastPlain (front ++ inner)

theorem Beyond.advance (h : Beyond source front state) : Beyond source front state.advance := by
  unfold State.advance
  split
  · exact h
  next token rest hvisible =>
    split
    · exact h
    obtain ⟨inner, htokens, hprevious⟩ := h
    obtain ⟨hidden, hsplit, hlayout⟩ := visible_append state.braceDepth state.ahead
    rw [State.visibleFrom] at hvisible
    rw [hvisible] at hsplit
    refine ⟨inner ++ (hidden ++ [token]), ?_, ?_⟩
    · rw [htokens, hsplit]
      simp only [List.append_assoc, List.singleton_append]
    · rw [← List.append_assoc, lastPlain_append, lastPlain_append hidden, lastPlain_layout hlayout,
        lastPlain_singleton, Option.or_none, ← hprevious]
      split <;> rfl

theorem Beyond.reaches (h : Beyond source front state) (hreaches : Reaches state next) :
    Beyond source front next := by
  refine hreaches.invariant (fun first second hstep hfirst => ?_) h
  cases hstep with
  | advance => exact hfirst.advance
  | report | valueFailed | use | enter | leave | interpolation | imports => exact hfirst

/-- The token has been read. -/
def HasRead (source : List Char) (token : Token) (state : State) : Prop :=
  ∃ front, Beyond source (front ++ [token]) state

theorem HasRead.reaches {token : Token} (h : HasRead source token state)
    (hreaches : Reaches state next) : HasRead source token next :=
  h.imp fun _ hread => hread.reaches hreaches

/-! ## Places that have been passed -/

/-- A token that is not layout has been read, and the place is not behind its end. -/
def Passed (source : List Char) (p : Position) (state : State) : Prop :=
  ∃ last, HasRead source last state ∧ last.kind.isLayout = false ∧ p ≤ endOf source (some last)

theorem Passed.reaches (h : Passed source p state) (hreaches : Reaches state next) :
    Passed source p next := by
  obtain ⟨last, hread, hplain, hle⟩ := h
  exact ⟨last, hread.reaches hreaches, hplain, hle⟩

theorem Passed.mono (h : Passed source p state) (hle : q ≤ p) : Passed source q state := by
  obtain ⟨last, hread, hplain, hend⟩ := h
  exact ⟨last, hread, hplain, Position.le_trans hle hend⟩

theorem HasRead.passed {token : Token} (h : HasRead source token state)
    (hplain : token.kind.isLayout = false) : Passed source token.position state :=
  ⟨token, h, hplain, position_le_endOf token⟩

/-- All tokens ahead start where the parse has come to, or further on. -/
theorem Passed.le_ahead (h : Passed source p state) :
    ∀ token ∈ state.ahead, p ≤ token.position := by
  obtain ⟨last, ⟨front, inner, htokens, -⟩, -, hle⟩ := h
  have hordered := endOf_le_position source
  rw [htokens, List.pairwise_append] at hordered
  intro token hmem
  refine Position.le_trans hle (hordered.2.2 last ?_ token hmem)
  simp

/-- Behind a token that has been read the token read last is that token or one behind it. -/
theorem HasRead.exists_last {first : Token} (h : HasRead source first state)
    (hplain : first.kind.isLayout = false) : ∃ front inner last,
      tokenize source = front ++ first :: inner ++ state.ahead ∧
        lastPlain (first :: inner) = some last ∧ state.previous = some last := by
  obtain ⟨front, inner, htokens, hprevious⟩ := h
  have hsplit : front ++ [first] ++ inner = front ++ first :: inner := by
    rw [List.append_assoc, List.singleton_append]
  have hfirst : lastPlain (first :: inner) = (lastPlain inner).or (some first) := by
    rw [← List.singleton_append, lastPlain_append, lastPlain_singleton, hplain]
    rfl
  obtain ⟨last, hlast⟩ : ∃ last, lastPlain (first :: inner) = some last := by
    rw [hfirst]
    cases lastPlain inner with
    | none => exact ⟨first, rfl⟩
    | some last => exact ⟨last, rfl⟩
  rw [hsplit] at htokens hprevious
  refine ⟨front, inner, last, htokens, hlast, ?_⟩
  rw [hprevious, lastPlain_append, hlast, Option.some_or]

/-- Behind a token that has been read the end of the token read last is a place of its own. -/
theorem Passed.exists_previous (h : Passed source p state) :
    ∃ last, state.previous = some last ∧ p ≤ endOf source (some last) ∧
      Passed source (endOf source (some last)) state := by
  obtain ⟨first, hread, hplain, hle⟩ := h
  obtain ⟨front, inner, last, htokens, hinner, hprevious⟩ := hread.exists_last hplain
  obtain ⟨hmem, hlast⟩ := lastPlain_eq_some hinner
  -- The token read last is the first one itself, or it starts behind the end of that one.
  have hend : endOf source (some first) ≤ endOf source (some last) := by
    obtain rfl | hmem := List.mem_cons.mp hmem
    · exact Position.le_refl _
    · have hordered := endOf_le_position source
      rw [htokens, List.append_assoc, List.pairwise_append, List.cons_append,
        List.pairwise_cons] at hordered
      have hbefore : endOf source (some first) ≤ last.position :=
        hordered.2.1.1 last (List.mem_append_left _ hmem)
      exact Position.le_trans hbefore (position_le_endOf last)
  obtain ⟨before, behind, hsplit⟩ := List.append_of_mem hmem
  have hread : front ++ first :: inner = front ++ before ++ [last] ++ behind := by
    rw [hsplit]
    simp only [List.append_assoc, List.cons_append, List.nil_append]
  refine ⟨last, hprevious, Position.le_trans hle hend, last,
    ⟨front ++ before, behind, by rw [htokens, hread], ?_⟩, hlast, Position.le_refl _⟩
  rw [← hread, lastPlain_append, hinner, Option.some_or, hprevious]

theorem Passed.le_end (h : Passed source p state) : p ≤ endOf source state.previous := by
  obtain ⟨last, hprevious, hle, -⟩ := h.exists_previous
  rwa [hprevious]

theorem Passed.passed_end (h : Passed source p state) :
    Passed source (endOf source state.previous) state := by
  obtain ⟨last, hprevious, -, hpassed⟩ := h.exists_previous
  rwa [hprevious]

/-! ## States of the parse of a text -/

/-- The tokens ahead are those of the text that have not been read. -/
structure Stands (source : List Char) (state : State) : Prop where
  read : Beyond source [] state
  ended : Ended state.ahead
  nesting : state.nesting ≤ maxNesting

namespace Stands

theorem within (h : Stands source state) : Within state.ahead.length state.nesting state :=
  ⟨h.ended, Nat.le_refl _, rfl, h.nesting⟩

theorem keeps (h : Stands source state) (hkeeps : Keeps state next) : Stands source next :=
  ⟨h.read.reaches hkeeps.reaches, hkeeps.moved.ended h.ended,
    Nat.le_trans (Nat.le_of_eq hkeeps.nesting) h.nesting⟩

/-- The tokens ahead begin with the current one, but for layout in front of it. -/
theorem exists_ahead (h : Stands source state) : ∃ hidden rest,
    state.visibleFrom 0 = state.token :: rest ∧ state.ahead = hidden ++ state.token :: rest := by
  obtain ⟨rest, hvisible⟩ := exists_visibleFrom h.ended 0
  obtain ⟨hidden, hsplit, -⟩ := visible_append state.braceDepth state.ahead
  refine ⟨hidden, rest, hvisible, ?_⟩
  rw [State.visibleFrom] at hvisible
  rw [hsplit, hvisible]
  rfl

theorem token_mem (h : Stands source state) : state.token ∈ state.ahead := by
  obtain ⟨hidden, rest, -, hahead⟩ := h.exists_ahead
  rw [hahead]
  exact List.mem_append_right hidden List.mem_cons_self

/-- Behind a token it has been read. -/
theorem hasRead_advance (h : Stands source state) (hplain : state.token.kind.isLayout = false)
    (heof : state.token.kind ≠ .eof) : HasRead source state.token state.advance := by
  obtain ⟨inner, htokens, -⟩ := h.read
  obtain ⟨hidden, rest, hvisible, hahead⟩ := h.exists_ahead
  refine ⟨inner ++ hidden, [], ?_, ?_⟩
  · rw [State.advance_of_visible hvisible heof, htokens, hahead]
    simp only [List.append_assoc, List.nil_append, List.singleton_append]
  · rw [State.advance_of_visible hvisible heof, hplain, List.append_nil, lastPlain_append,
      lastPlain_singleton, hplain]
    rfl

end Stands

theorem stands_start (options : ParseOptions) (source : List Char) :
    Stands source (.start options (tokenize source)) where
  read := ⟨[], rfl, rfl⟩
  ended := ended_tokenize source
  nesting := Nat.zero_le _

end Parser
end SceneLang
