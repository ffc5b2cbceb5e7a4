import SceneLang.Proofs.Token.Steps
import Mathlib.Data.List.Basic

/-!
# The layout of a token stream

A token stream ends with its only end token; its layout tokens open and close levels as
brackets do; and within the text none of them stands between round or square brackets.
The invariant ties what has been emitted to the state: the levels that the stream has opened
and not closed are those of the state, up to the layout tokens that are still owed.
-/

namespace SceneLang

namespace Token

def countOf (kind : TokenKind) (tokens : List Token) : Nat :=
  tokens.countP (·.kind = kind)

/-- The round and square brackets that tokens leave open; a closing one too many closes
nothing. -/
def openGroups (tokens : List Token) : Nat :=
  tokens.foldl (fun groups token => Scanner.groupsAfter token.kind groups) 0

theorem countOf_append_singleton (kind : TokenKind) (tokens : List Token) (token : Token) :
    countOf kind (tokens ++ [token]) = countOf kind tokens + if token.kind = kind then 1 else 0 := by
  simp [countOf, List.countP_append, List.countP_singleton]

theorem openGroups_append_singleton (tokens : List Token) (token : Token) :
    openGroups (tokens ++ [token]) = Scanner.groupsAfter token.kind (openGroups tokens) := by
  simp [openGroups]

/-- A token that is neither layout nor the end of a text. -/
def isPlain (token : Token) : Bool :=
  !token.kind.isLayout && token.kind ≠ .eof

theorem isPlain_iff {token : Token} :
    token.isPlain = true ↔ token.kind.isLayout = false ∧ token.kind ≠ .eof := by
  rw [isPlain, Bool.and_eq_true, Bool.not_eq_true', decide_eq_true_eq]

theorem isPlain_of_layout {token : Token} (h : token.kind.isLayout = true) :
    token.isPlain = false := by
  rw [isPlain, h]
  rfl

theorem filter_isPlain_of_layout {tokens : List Token}
    (h : ∀ token ∈ tokens, token.kind.isLayout = true) : tokens.filter isPlain = [] := by
  rw [List.filter_eq_nil_iff]
  exact fun token hmem => Bool.eq_false_iff.mp (isPlain_of_layout (h token hmem))

end Token

namespace Scanner

open Token (countOf openGroups)

/-! ## Levels -/

theorem mem_relevel {width : Nat} {levels : List Nat} {kind : TokenKind}
    (h : kind ∈ (relevel width levels).2) : kind = .indent ∨ kind = .dedent := by
  unfold relevel at h
  dsimp only at h
  split at h
  · rw [List.mem_append, List.mem_singleton, List.mem_replicate] at h
    obtain ⟨_, hkind⟩ | hkind := h
    · exact .inr hkind
    · exact .inl hkind
  · exact .inr (List.mem_replicate.mp h).2

/-- The layout tokens of a line lead from the levels before it to those behind it. -/
theorem count_relevel (width : Nat) (levels : List Nat) :
    levels.length + (relevel width levels).2.count .indent =
      (relevel width levels).1.length + (relevel width levels).2.count .dedent := by
  have hsplit := congrArg List.length (List.takeWhile_append_dropWhile
    (p := fun level => decide (width < level)) (l := levels))
  rw [List.length_append] at hsplit
  unfold relevel
  dsimp only
  split <;> simp [List.count_append, List.count_replicate] <;> omega

theorem count_indent_relevel (width : Nat) (levels : List Nat) :
    (relevel width levels).2.count .indent ≤ (relevel width levels).1.length := by
  unfold relevel
  dsimp only
  split <;> simp [List.count_append, List.count_replicate]

/-! ## The invariant -/

/-- What the tokens emitted so far have to do with the state of the scanner. -/
structure Layered (emitted : List Token) (s : Scanner) : Prop where
  groups : openGroups emitted = s.groups
  owed : ∀ kind ∈ s.owed, kind = .indent ∨ kind = .dedent
  outside : s.owed ≠ [] → s.groups = 0
  levels : countOf .indent emitted + s.owed.count .indent =
    countOf .dedent emitted + s.owed.count .dedent + s.levels.length
  indents : s.owed.count .indent ≤ s.levels.length

variable {emitted : List Token} {s next : Scanner} {token : Token}

theorem layered_ofText (text : List Char) : Layered [] (ofText text) where
  groups := rfl
  owed := by simp [ofText]
  outside := fun h => absurd rfl h
  levels := rfl
  indents := Nat.le_refl 0

namespace Layered

theorem startLine (h : Layered emitted s) (howed : s.owed = []) (hgroups : s.groups = 0) :
    Layered emitted s.startLine := by
  have hlevels := h.levels
  rw [howed] at hlevels
  unfold Scanner.startLine
  dsimp only
  split
  · refine ⟨h.groups, fun kind => mem_relevel, fun _ => hgroups, ?_, count_indent_relevel _ _⟩
    have hcount := count_relevel (indentation s.cursor.rest) s.levels
    dsimp only
    simp only [List.count_nil] at hlevels
    omega
  · exact ⟨h.groups, h.owed, h.outside, h.levels, h.indents⟩

theorem skip (h : Layered emitted s) (hstep : s.step = .skip next) : Layered emitted next := by
  have hmoves := hstep ▸ moves_step s
  cases hmoves with
  | startLine howed _ hgroups => exact h.startLine howed hgroups
  | trivia | joinLines | leaveLine | ignore =>
      exact ⟨h.groups, h.owed, h.outside, h.levels, h.indents⟩

/-- A token that is neither a bracket nor an indentation leaves the counts as they are. -/
theorem emit (h : Layered emitted s) (hstep : s.step = .emit token next) :
    Layered (emitted ++ [token]) next := by
  have hmoves := hstep ▸ moves_step s
  have hlevels := h.levels
  have hindents := h.indents
  cases hmoves with
  | @owed kind owed howed =>
      have hgroups := h.outside (by rw [howed]; exact List.cons_ne_nil _ _)
      have hkind := h.owed kind (by rw [howed]; exact List.mem_cons_self)
      rw [howed] at hlevels hindents
      constructor
      · rw [Token.openGroups_append_singleton, h.groups]
        obtain rfl | rfl := hkind <;> rfl
      · exact fun kind hmem => h.owed kind (by rw [howed]; exact List.mem_cons_of_mem _ hmem)
      · exact fun _ => hgroups
      · obtain rfl | rfl := hkind <;>
          simp [Token.countOf_append_singleton, mark] at hlevels hindents ⊢ <;> omega
      · obtain rfl | rfl := hkind <;> simp at hlevels hindents ⊢ <;> omega
  | endLine howed | breakLine howed =>
      refine ⟨?_, h.owed, h.outside, ?_, h.indents⟩
      · rw [Token.openGroups_append_singleton, h.groups]
        rfl
      · simpa [Token.countOf_append_singleton, mark] using hlevels
  | endLevel howed _ _ hopen =>
      rw [howed, hopen] at hlevels
      refine ⟨?_, h.owed, h.outside, ?_, ?_⟩
      · rw [Token.openGroups_append_singleton, h.groups]
        rfl
      · simp [Token.countOf_append_singleton, mark, howed] at hlevels ⊢
        omega
      · simp [howed]
  | lexeme howed _ _ hscan =>
      have hsolid := Lexeme.solid_of_scan hscan
      have hcount {kind : TokenKind} (hkind : kind.isLayout = true) {token : Token}
          (htoken : token.kind.isLayout = false) :
          countOf kind (emitted ++ [token]) = countOf kind emitted := by
        rw [Token.countOf_append_singleton, if_neg, Nat.add_zero]
        intro heq
        rw [heq, hkind] at htoken
        contradiction
      refine ⟨?_, h.owed, fun howing => absurd howed howing, ?_, h.indents⟩
      · rw [Token.openGroups_append_singleton, h.groups]
      · rw [hcount rfl hsolid.1, hcount rfl hsolid.1]
        exact hlevels

theorem dedents_le (h : Layered emitted s) :
    countOf .dedent emitted ≤ countOf .indent emitted := by
  have hlevels := h.levels
  have hindents := h.indents
  omega

end Layered

theorem Emits.layered {text : List Char} (h : Emits (ofText text) emitted s) :
    Layered emitted s :=
  Emits.invariant Layered Layered.skip Layered.emit h (layered_ofText text)

/-! ## The end of a stream -/

theorem ne_eof_of_emit {text : List Char} (hrun : Emits (ofText text) emitted s)
    (hstep : s.step = .emit token next) : token.kind ≠ .eof := by
  have hmoves := hstep ▸ moves_step s
  cases hmoves with
  | owed howed =>
      have hkind := hrun.layered.owed _ (by rw [howed]; exact List.mem_cons_self)
      obtain rfl | rfl := hkind <;> exact TokenKind.noConfusion
  | endLine | endLevel | breakLine => exact TokenKind.noConfusion
  | lexeme _ _ _ hscan => exact (Lexeme.solid_of_scan hscan).2

/-- A layout token before the end of the text stands outside of brackets. -/
theorem openGroups_of_emit {text : List Char} (hrun : Emits (ofText text) emitted s)
    (hstep : s.step = .emit token next) (hlayout : token.kind.isLayout = true)
    (hwithin : token.span.start < Text.byteLength text) : openGroups emitted = 0 := by
  have hatEnd (hrest : s.cursor.rest = []) (hoffset : s.cursor.offset < Text.byteLength text) :
      openGroups emitted = 0 := by
    rw [hrun.in.offset_eq hrest] at hoffset
    exact absurd hoffset (Nat.lt_irrefl _)
  rw [hrun.layered.groups]
  have hmoves := hstep ▸ moves_step s
  cases hmoves with
  | owed howed => exact hrun.layered.outside (by rw [howed]; exact List.cons_ne_nil _ _)
  | endLine _ hrest | endLevel _ hrest => exact hrun.layered.groups ▸ hatEnd hrest hwithin
  | breakLine _ _ hgroups => exact hgroups
  | lexeme _ _ _ hscan =>
      have hsolid := (Lexeme.solid_of_scan hscan).1
      exact absurd hlayout (Bool.eq_false_iff.mp hsolid)

/-- A run that has emitted a part of a stream, up to any place before the end token. -/
theorem Emits.start {front back : List Token} {last : Scanner} (h : Emits s (front ++ back) last) :
    ∃ middle, Emits s front middle := by
  cases back with
  | nil =>
      rw [List.append_nil] at h
      exact ⟨last, h⟩
  | cons token back =>
      obtain ⟨middle, _, hfront, _, _⟩ := h.cut
      exact ⟨middle, hfront⟩

end Scanner

open Token (countOf openGroups)

/-- The end token is the last one and the only one; no part of a stream closes more levels than
it opens, and the whole closes them all; and before the end of the text layout tokens stand
outside of round and square brackets. -/
theorem tokenize_layout (text : List Char) :
    (∃ front last, tokenize text = front ++ [last] ∧ last.kind = .eof ∧
      ∀ token ∈ front, token.kind ≠ .eof) ∧
    (∀ front back, tokenize text = front ++ back →
      countOf .dedent front ≤ countOf .indent front) ∧
    countOf .dedent (tokenize text) = countOf .indent (tokenize text) ∧
    ∀ front token back, tokenize text = front ++ token :: back → token.kind.isLayout = true →
      token.span.start < Text.byteLength text → openGroups front = 0 := by
  obtain ⟨tokens, last, final, hrun, hfinish, htokens⟩ :=
    (Scanner.ofText text).exists_emits_finish
  have htokens : tokenize text = tokens ++ [final] := htokens
  have hfinal := Scanner.kind_of_finish hfinish
  have hbalanced : countOf .dedent (tokenize text) = countOf .indent (tokenize text) := by
    have hmoves := hfinish ▸ Scanner.moves_step last
    cases hmoves with
    | finish howed _ _ hlevels =>
        have hcount := hrun.layered.levels
        rw [howed, hlevels] at hcount
        rw [htokens, Token.countOf_append_singleton, Token.countOf_append_singleton]
        simpa [Scanner.mark] using hcount.symm
  have hbefore (front others : List Token) (token : Token)
      (hsplit : tokenize text = front ++ (others ++ [token])) :
      tokens = front ++ others ∧ final = token := by
    rw [htokens, ← List.append_assoc] at hsplit
    obtain ⟨hfront, htoken⟩ := List.append_inj' hsplit rfl
    exact ⟨hfront, List.singleton_inj.mp htoken⟩
  refine ⟨⟨tokens, final, htokens, hfinal, ?_⟩, ?_, hbalanced, ?_⟩
  · intro token hmem
    obtain ⟨front, back, rfl⟩ := List.append_of_mem hmem
    obtain ⟨before, after, hfront, hemit, _⟩ := hrun.cut
    exact Scanner.ne_eof_of_emit hfront hemit
  · intro front back hsplit
    obtain rfl | ⟨others, token, rfl⟩ := back.eq_nil_or_concat'
    · rw [List.append_nil] at hsplit
      exact hsplit ▸ Nat.le_of_eq hbalanced
    · obtain ⟨rfl, _⟩ := hbefore _ _ _ hsplit
      obtain ⟨middle, hfront⟩ := hrun.start
      exact hfront.layered.dedents_le
  · intro front token back hsplit hlayout hwithin
    obtain rfl | ⟨others, other, rfl⟩ := back.eq_nil_or_concat'
    · obtain ⟨_, rfl⟩ := hbefore front [] token hsplit
      rw [hfinal] at hlayout
      contradiction
    · obtain ⟨rfl, _⟩ := hbefore front (token :: others) other hsplit
      obtain ⟨before, after, hfront, hemit, _⟩ := hrun.cut
      exact Scanner.openGroups_of_emit hfront hemit hlayout hwithin

end SceneLang
