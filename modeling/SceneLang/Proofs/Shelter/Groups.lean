import SceneLang.Parser.Recovery
import SceneLang.Token.Stream

/-!
# Groups of tokens

Parentheses, brackets and braces are properly nested if each closing token closes the group
that was opened last and none is left open.  The groups that are open form a stack; a block is
at its end when the stack is empty, and not earlier.
-/

namespace SceneLang

namespace Delimiter

def ofClosing? : TokenKind → Option Delimiter
  | .rightParen => some .paren
  | .rightBracket => some .bracket
  | .rightBrace => some .brace
  | _ => none

/-- The groups that are open behind a token, innermost first; none if the token closes another
group than the innermost. -/
def behind? (opened : List Delimiter) (kind : TokenKind) : Option (List Delimiter) :=
  match ofOpening? kind, ofClosing? kind, opened with
  | some delimiter, _, opened => some (delimiter :: opened)
  | none, none, opened => some opened
  | none, some delimiter, innermost :: outer => if delimiter = innermost then some outer else none
  | none, some _, [] => none

end Delimiter

namespace Token

/-- The groups that are open behind tokens, if they are properly nested so far. -/
def groupsBehind? (opened : List Delimiter) (tokens : List Token) : Option (List Delimiter) :=
  tokens.foldlM (fun opened token => Delimiter.behind? opened token.kind) opened

/-- The groups of the tokens are properly nested. -/
def Nested (tokens : List Token) : Prop :=
  groupsBehind? [] tokens = some []

instance (tokens : List Token) : Decidable (Nested tokens) :=
  inferInstanceAs (Decidable (groupsBehind? [] tokens = some []))

theorem groupsBehind?_cons (opened : List Delimiter) (token : Token) (rest : List Token) :
    groupsBehind? opened (token :: rest) =
      (Delimiter.behind? opened token.kind).bind (groupsBehind? · rest) :=
  rfl

theorem groupsBehind?_append (opened : List Delimiter) (front back : List Token) :
    groupsBehind? opened (front ++ back) =
      (groupsBehind? opened front).bind (groupsBehind? · back) :=
  List.foldlM_append

/-- Layout and the end of a text open and close nothing. -/
theorem groupsBehind?_of_layout {tokens : List Token}
    (h : ∀ token ∈ tokens, token.kind.isLayout = true ∨ token.kind = .eof)
    (opened : List Delimiter) : groupsBehind? opened tokens = some opened := by
  induction tokens with
  | nil => rfl
  | cons token rest ih =>
      have hbehind : Delimiter.behind? opened token.kind = some opened := by
        have hkind := h token List.mem_cons_self
        cases hcase : token.kind <;> rw [hcase] at hkind <;> first | rfl | simp at hkind
        all_goals simp [TokenKind.isLayout] at hkind
      rw [groupsBehind?_cons, hbehind]
      exact ih fun other hmem => h other (List.mem_cons_of_mem token hmem)

end Token

namespace Delimiter

theorem ofOpening?_opening (delimiter : Delimiter) :
    ofOpening? delimiter.opening = some delimiter := by
  cases delimiter <;> rfl

theorem ofClosing?_closing (delimiter : Delimiter) :
    ofClosing? delimiter.closing = some delimiter := by
  cases delimiter <;> rfl

theorem opening_of_some {kind : TokenKind} {delimiter : Delimiter}
    (h : ofOpening? kind = some delimiter) : kind = delimiter.opening := by
  unfold ofOpening? at h
  split at h <;> cases h <;> rfl

theorem closing_of_some {kind : TokenKind} {delimiter : Delimiter}
    (h : ofClosing? kind = some delimiter) : kind = delimiter.closing := by
  unfold ofClosing? at h
  split at h <;> cases h <;> rfl

theorem ofClosing?_of_opening {kind : TokenKind} {delimiter : Delimiter}
    (h : ofOpening? kind = some delimiter) : ofClosing? kind = none := by
  rw [opening_of_some h]
  cases delimiter <;> rfl

end Delimiter

/-- The tokens close all the groups that are open: the last of them with the last token, which
is a brace. -/
inductive Closes : List Delimiter → List Token → Prop
  | done : Closes [] []
  | plain {opened : List Delimiter} {token : Token} {rest : List Token}
      (hopening : Delimiter.ofOpening? token.kind = none)
      (hclosing : Delimiter.ofClosing? token.kind = none) (heof : token.kind ≠ .eof)
      (hopened : opened ≠ []) (hrest : Closes opened rest) : Closes opened (token :: rest)
  | opening {opened : List Delimiter} {token : Token} {rest : List Token} {delimiter : Delimiter}
      (hopening : Delimiter.ofOpening? token.kind = some delimiter) (hopened : opened ≠ [])
      (hrest : Closes (delimiter :: opened) rest) : Closes opened (token :: rest)
  | closing {opened : List Delimiter} {token : Token} {rest : List Token} {delimiter : Delimiter}
      (hclosing : Delimiter.ofClosing? token.kind = some delimiter)
      (hlast : opened = [] → delimiter = .brace) (hrest : Closes opened rest) :
      Closes (delimiter :: opened) (token :: rest)

namespace Closes

variable {opened : List Delimiter} {token : Token} {tokens rest : List Token}

/-- The group that is closed last is in braces. -/
theorem outermost (h : Closes opened tokens) (hopened : opened ≠ []) :
    opened.getLast? = some .brace := by
  induction h with
  | done => exact absurd rfl hopened
  | plain _ _ _ hopened _ ih => exact ih hopened
  | opening _ hopened _ ih =>
      have hlast := ih (List.cons_ne_nil _ _)
      rwa [List.getLast?_cons_of_ne_nil hopened] at hlast
  | @closing opened token rest delimiter _ hlast _ ih =>
      by_cases hnil : opened = []
      · rw [hlast hnil, hnil]
        rfl
      · rw [List.getLast?_cons_of_ne_nil hnil]
        exact ih hnil

theorem braces_pos (h : Closes opened tokens) (hopened : opened ≠ []) :
    0 < opened.count .brace :=
  List.count_pos_iff.mpr (List.mem_of_getLast? (h.outermost hopened))

theorem eq_nil (h : Closes [] tokens) : tokens = [] := by
  cases h with
  | done => rfl
  | plain _ _ _ hopened _ => exact absurd rfl hopened
  | opening _ hopened _ => exact absurd rfl hopened

theorem head_ne_eof (h : Closes opened (token :: rest)) : token.kind ≠ .eof := by
  cases h with
  | plain _ _ heof _ _ => exact heof
  | @opening _ _ _ delimiter hopening _ _ =>
      rw [Delimiter.opening_of_some hopening]
      cases delimiter <;> simp [Delimiter.opening]
  | @closing _ _ _ delimiter hclosing _ _ =>
      rw [Delimiter.closing_of_some hclosing]
      cases delimiter <;> simp [Delimiter.closing]

/-- Properly nested tokens and a closing brace close what is open in front of them, and one more
group in braces. -/
theorem of_groupsBehind? {close : Token} (hclose : close.kind = .rightBrace)
    (heof : ∀ token ∈ tokens, token.kind ≠ .eof)
    (h : Token.groupsBehind? opened tokens = some []) :
    Closes (opened ++ [.brace]) (tokens ++ [close]) := by
  induction tokens generalizing opened with
  | nil =>
      cases h
      exact .closing (by rw [hclose]; rfl) (fun _ => rfl) .done
  | cons token rest ih =>
      rw [Token.groupsBehind?_cons, Option.bind_eq_some_iff] at h
      obtain ⟨next, hnext, hrest⟩ := h
      have hrest := ih (fun other hmem => heof other (List.mem_cons_of_mem token hmem)) hrest
      unfold Delimiter.behind? at hnext
      split at hnext
      next delimiter _ _ hopening =>
        cases hnext
        exact .opening hopening (by simp) hrest
      next hopening hclosing =>
        cases hnext
        exact .plain hopening hclosing (heof token List.mem_cons_self) (by simp) hrest
      next delimiter innermost outer hopening hclosing =>
        split at hnext
        next heq =>
          cases hnext
          rw [← heq, List.cons_append]
          exact .closing hclosing (fun hnil => absurd hnil (by simp)) hrest
        next => cases hnext
      next => cases hnext

/-- Layout in front of other tokens is passed over. -/
theorem exists_plain (h : Closes opened tokens) (hopened : opened ≠ []) :
    ∃ hidden token rest, tokens = hidden ++ token :: rest ∧
      (∀ other ∈ hidden, other.kind.isLayout = true) ∧ token.kind.isLayout = false ∧
      Closes opened (token :: rest) := by
  induction h with
  | done => exact absurd rfl hopened
  | @plain opened token rest hopening hclosing heof hne hrest ih =>
      by_cases hlayout : token.kind.isLayout = true
      · obtain ⟨hidden, other, others, rfl, hhidden, hplain, hcloses⟩ := ih hopened
        refine ⟨token :: hidden, other, others, rfl, ?_, hplain, hcloses⟩
        intro first hmem
        obtain rfl | hmem := List.mem_cons.mp hmem
        · exact hlayout
        · exact hhidden first hmem
      · exact ⟨[], token, rest, rfl, by simp, eq_false_of_ne_true hlayout,
          .plain hopening hclosing heof hne hrest⟩
  | @opening opened token rest delimiter hopening hne hrest ih =>
      refine ⟨[], token, rest, rfl, by simp, ?_, .opening hopening hne hrest⟩
      rw [Delimiter.opening_of_some hopening]
      cases delimiter <;> rfl
  | @closing opened token rest delimiter hclosing hlast hrest ih =>
      refine ⟨[], token, rest, rfl, by simp, ?_, .closing hclosing hlast hrest⟩
      rw [Delimiter.closing_of_some hclosing]
      cases delimiter <;> rfl

end Closes

end SceneLang
