import SceneLang.Parser.Basic
import SceneLang.Proofs.Chunk.Cuts
import SceneLang.Proofs.Shelter.Groups
import SceneLang.Proofs.Token.Layout
import SceneLang.Proofs.Token.Tiling

/-!
# Chunks and their keywords

The cutter begins a chunk behind an element, and takes a word that starts a line outside of braces
and indentation for one.  The keyword of a chunk is looked for outside of all brackets.  The two
differ in round and square brackets only: a chunk that is followed by another one has a keyword,
unless one of its words starts a line in such brackets.
-/

namespace SceneLang
namespace Chunk

open SceneLang.Parser (depthAfter)
open Scanner (groupsAfter)
open Token (Nested openGroups)

/-! ## Open brackets -/

/-- The brackets of all kinds that are open behind a token of this kind. -/
def bracketsAfter (depth : Nat) : TokenKind → Nat
  | .leftBrace | .leftParen | .leftBracket => depth + 1
  | .rightBrace | .rightParen | .rightBracket => depth - 1
  | _ => depth

def openBrackets (tokens : List Token) : Nat :=
  tokens.foldl (fun depth token => bracketsAfter depth token.kind) 0

def openBraces (tokens : List Token) : Nat :=
  tokens.foldl (fun depth token => depthAfter depth token.kind) 0

theorem bracketsAfter_le {brackets braces groups : Nat} (h : brackets ≤ braces + groups)
    (kind : TokenKind) :
    bracketsAfter brackets kind ≤ depthAfter braces kind + groupsAfter kind groups := by
  unfold bracketsAfter depthAfter groupsAfter
  cases kind
  all_goals
    dsimp only
    omega

theorem openBrackets_concat (tokens : List Token) (token : Token) :
    openBrackets (tokens ++ [token]) = bracketsAfter (openBrackets tokens) token.kind :=
  List.foldl_concat ..

theorem openBraces_concat (tokens : List Token) (token : Token) :
    openBraces (tokens ++ [token]) = depthAfter (openBraces tokens) token.kind :=
  List.foldl_concat ..

/-- A closing bracket closes one of any kind, so that fewer are open if all kinds are counted
together. -/
theorem openBrackets_le (tokens : List Token) :
    openBrackets tokens ≤ openBraces tokens + openGroups tokens := by
  induction tokens using List.reverseRecOn with
  | nil => exact Nat.le_refl 0
  | append_singleton tokens token ih =>
      rw [openBrackets_concat, openBraces_concat, Token.openGroups_append_singleton]
      exact bracketsAfter_le ih token.kind

theorem openBraces_append_of_isGap {gap : List Token} (hgap : IsGap gap) (tokens : List Token) :
    openBraces (tokens ++ gap) = openBraces tokens := by
  induction gap using List.reverseRecOn with
  | nil => rw [List.append_nil]
  | append_singleton gap token ih =>
      obtain ⟨hgap, htoken⟩ := List.forall_mem_append.mp hgap
      have hkind := htoken token List.mem_cons_self
      rw [← List.append_assoc, openBraces_concat, ih hgap]
      unfold TokenKind.isLayout at hkind
      unfold depthAfter
      split at hkind <;> simp_all

/-! ## Where lines start -/

/-- The line of the last token that is no layout. -/
def lastLineOf (before : Nat) (tokens : List Token) : Nat :=
  tokens.foldl (fun line token => if token.kind.isLayout then line else token.line) before

theorem lastLineOf_concat (before : Nat) (tokens : List Token) (token : Token) :
    lastLineOf before (tokens ++ [token]) =
      if token.kind.isLayout then lastLineOf before tokens else token.line :=
  List.foldl_concat ..

theorem lastLineOf_append_of_isGap {gap : List Token} (hgap : IsGap gap) (before : Nat)
    (tokens : List Token) : lastLineOf before (tokens ++ gap) = lastLineOf before tokens := by
  induction gap using List.reverseRecOn with
  | nil => rw [List.append_nil]
  | append_singleton gap token ih =>
      obtain ⟨hgap, htoken⟩ := List.forall_mem_append.mp hgap
      rw [← List.append_assoc, lastLineOf_concat, if_pos (htoken token List.mem_cons_self), ih hgap]

/-- A word behind some tokens that is on none of their lines. -/
structure LeadsLine (front : List Token) (word : Token) : Prop where
  kind : word.kind = .identifier
  line : word.line ≠ lastLineOf 0 front

/-! ## Looking for a keyword -/

variable {depth lastLine index : Nat} {token : Token} {front tokens rest : List Token}

theorem keywordIndex?_of_none (hlayout : token.kind.isLayout = false)
    (h : keywordIndex? depth lastLine index (token :: rest) = none) :
    ¬(token.kind = .identifier ∧ depth = 0 ∧ token.line ≠ lastLine) ∧
      keywordIndex? (bracketsAfter depth token.kind) token.line (index + 1) rest = none := by
  rw [keywordIndex?, hlayout, if_neg Bool.false_ne_true] at h
  unfold bracketsAfter
  split at h
  case h_7 hkind =>
    rw [hkind]
    split at h
    next => contradiction
    next hnot => exact ⟨fun hword => hnot hword.2, h⟩
  all_goals simp_all

/-- Where no keyword is found, none is found behind a front either, nor is it the word there. -/
theorem keywordIndex?_behind (h : keywordIndex? depth lastLine index (front ++ rest) = none) :
    keywordIndex? (front.foldl (fun depth token => bracketsAfter depth token.kind) depth)
      (lastLineOf lastLine front) (index + front.length) rest = none := by
  induction front generalizing depth lastLine index with
  | nil => exact h
  | cons token front ih =>
      rw [List.length_cons, Nat.add_comm front.length, ← Nat.add_assoc]
      by_cases hlayout : token.kind.isLayout = true
      · have hdepth : bracketsAfter depth token.kind = depth := by
          unfold TokenKind.isLayout at hlayout
          unfold bracketsAfter
          split at hlayout <;> simp_all
        rw [List.cons_append, keywordIndex?, if_pos hlayout] at h
        rw [List.foldl_cons, hdepth, lastLineOf, List.foldl_cons, if_pos hlayout]
        exact ih h
      · have hnext := (keywordIndex?_of_none (eq_false_of_ne_true hlayout) h).2
        rw [List.foldl_cons, lastLineOf, List.foldl_cons, if_neg hlayout]
        exact ih hnext

/-- A word that leads a line outside of all brackets is a keyword, unless there is one before. -/
theorem openBrackets_ne_zero {word : Token} {back : List Token}
    (h : keywordIndex? 0 0 0 (front ++ word :: back) = none) (hword : LeadsLine front word) :
    openBrackets front ≠ 0 := by
  have hlayout : word.kind.isLayout = false := by rw [hword.kind]; rfl
  have hnone := keywordIndex?_of_none hlayout (keywordIndex?_behind h)
  exact fun hzero => hnone.1 ⟨hword.kind, hzero, hword.line⟩

/-! ## What the cutter takes for an element -/

/-- A word of the tokens leads a line outside of braces. -/
def HasWord (tokens : List Token) : Prop :=
  ∃ front word back, tokens = front ++ word :: back ∧ LeadsLine front word ∧ openBraces front = 0

theorem HasWord.append (h : HasWord tokens) (more : List Token) : HasWord (tokens ++ more) := by
  obtain ⟨front, word, back, rfl, hword, hbraces⟩ := h
  exact ⟨front, word, back ++ more, by simp, hword, hbraces⟩

namespace Cutter

/-- What a cutter knows of the chunk at hand is what its tokens tell, and every finished chunk has
an element. -/
structure Tells (cutter : Cutter) : Prop where
  layout : IsGap cutter.layout
  braces : cutter.braceDepth = openBraces cutter.current.reverse
  line : cutter.lastLine = lastLineOf 0 cutter.current.reverse
  element : cutter.hasElement = true → HasWord cutter.current.reverse
  finished : ∀ tokens ∈ cutter.finished, HasWord tokens
  first : cutter.current = [] → cutter.finished = []

variable {cutter : Cutter}

theorem tells_start : start.Tells where
  layout := isGap_nil
  braces := rfl
  line := rfl
  element := fun h => Bool.noConfusion h
  finished := List.forall_mem_nil _
  first := fun _ => rfl

theorem Tells.takeLayout (h : cutter.Tells) (htoken : token.kind.isLayout = true) :
    (cutter.takeLayout token).Tells :=
  ⟨List.forall_mem_cons.mpr ⟨htoken, h.layout⟩, h.braces, h.line, h.element, h.finished, h.first⟩

theorem braceDepth_takeToken (cutter : Cutter) (token : Token) :
    (cutter.takeToken token).braceDepth = depthAfter cutter.braceDepth token.kind := by
  unfold takeToken depthAfter
  cases token.kind <;> rfl

/-- The first token of a chunk is on a line of its own, which may be that of an element. -/
theorem hasWord_singleton (hpositive : token.line ≠ 0) (hkind : token.kind = .identifier) :
    HasWord [token] :=
  ⟨[], token, [], rfl, ⟨hkind, hpositive⟩, rfl⟩

/-- A token that is the only one of its chunk so far. -/
theorem Tells.single (hbraces : cutter.braceDepth = 0) (hlayout : token.kind.isLayout = false)
    (hpositive : token.line ≠ 0) (hcurrent : (cutter.takeToken token).current = [token])
    (helement : (cutter.takeToken token).hasElement = true → token.kind = .identifier)
    (hfinished : ∀ tokens ∈ (cutter.takeToken token).finished, HasWord tokens) :
    (cutter.takeToken token).Tells where
  layout := isGap_nil
  braces := by
    rw [braceDepth_takeToken, hbraces, hcurrent]
    rfl
  line := by
    rw [hcurrent]
    change token.line = if token.kind.isLayout then 0 else token.line
    rw [hlayout, if_neg Bool.false_ne_true]
  element := fun hword => hcurrent ▸ hasWord_singleton hpositive (helement hword)
  finished := hfinished
  first := fun hnil => absurd (hcurrent.symm.trans hnil) (List.cons_ne_nil _ _)

theorem Tells.begin (h : cutter.Tells) (hlayout : token.kind.isLayout = false)
    (hpositive : token.line ≠ 0)
    (hbegins : (cutter.atTop && cutter.itemEnded && cutter.hasElement) = true) :
    (cutter.takeToken token).Tells := by
  obtain ⟨hbraces, helement⟩ : cutter.braceDepth = 0 ∧ cutter.hasElement = true := by
    simp only [Bool.and_eq_true, atTop, decide_eq_true_eq] at hbegins
    exact ⟨hbegins.1.1.1, hbegins.2⟩
  apply Tells.single hbraces hlayout hpositive
  · simp [takeToken, hbegins]
  · intro hword
    simp only [takeToken, hbegins, Bool.not_true, Bool.and_false, Bool.or_false, Bool.and_eq_true,
      decide_eq_true_eq] at hword
    exact hword.2
  · simp only [takeToken, hbegins, if_true]
    exact List.forall_mem_cons.mpr ⟨h.element helement, h.finished⟩

/-- The first token of all. -/
theorem Tells.lead (h : cutter.Tells) (hlayout : token.kind.isLayout = false)
    (hpositive : token.line ≠ 0) (hcurrent : cutter.current = []) :
    (cutter.takeToken token).Tells := by
  have hnone : cutter.hasElement = false := by
    refine eq_false_of_ne_true fun helement => ?_
    obtain ⟨front, word, back, hsplit, -⟩ := h.element helement
    simp [hcurrent] at hsplit
  apply Tells.single (h.braces.trans (by rw [hcurrent]; rfl)) hlayout hpositive
  · simp [takeToken, hcurrent]
  · intro hword
    simp only [takeToken, hnone, Bool.false_and, Bool.or_false, Bool.and_eq_true,
      decide_eq_true_eq] at hword
    exact hword.2
  · simp only [takeToken, hnone, Bool.and_false, Bool.false_eq_true, if_false]
    exact h.finished

/-- A token behind others of its chunk. -/
theorem Tells.concat (h : cutter.Tells) (hlayout : token.kind.isLayout = false)
    (hcurrent : cutter.current ≠ [])
    (hbegins : (cutter.atTop && cutter.itemEnded && cutter.hasElement) = false) :
    (cutter.takeToken token).Tells := by
  have hempty : cutter.current.isEmpty = false := by simpa using hcurrent
  have htokens : (cutter.takeToken token).current.reverse =
      cutter.current.reverse ++ cutter.layout.reverse ++ [token] := by
    simp [takeToken, hbegins, hempty]
  have hgap := h.layout.reverse
  constructor
  · exact isGap_nil
  · rw [braceDepth_takeToken, htokens, openBraces_concat, openBraces_append_of_isGap hgap, h.braces]
  · rw [htokens, lastLineOf_concat, hlayout, if_neg Bool.false_ne_true]
    rfl
  · intro hword
    rw [htokens]
    simp only [takeToken, hbegins, Bool.not_false, Bool.and_true] at hword
    obtain hstarts | helement := Bool.or_eq_true_iff.mp hword
    · simp only [Bool.and_eq_true, atTop, decide_eq_true_eq] at hstarts
      obtain ⟨⟨⟨hdepth, -⟩, hline⟩, hkind⟩ := hstarts
      refine ⟨_, token, [], rfl, ⟨hkind, ?_⟩, ?_⟩
      · rwa [lastLineOf_append_of_isGap hgap, ← h.line]
      · rw [openBraces_append_of_isGap hgap, ← h.braces, hdepth]
    · rw [List.append_assoc]
      exact (h.element helement).append _
  · simp only [takeToken, hbegins, Bool.false_eq_true, if_false]
    exact h.finished
  · intro hnil
    rw [List.reverse_eq_nil_iff.mpr hnil] at htokens
    simp at htokens

theorem Tells.takeToken (h : cutter.Tells) (hlayout : token.kind.isLayout = false)
    (hpositive : token.line ≠ 0) : (cutter.takeToken token).Tells := by
  cases hbegins : cutter.atTop && cutter.itemEnded && cutter.hasElement with
  | true => exact h.begin hlayout hpositive hbegins
  | false =>
      by_cases hcurrent : cutter.current = []
      · exact h.lead hlayout hpositive hcurrent
      · exact h.concat hlayout hcurrent hbegins

theorem Tells.take (h : cutter.Tells) (hpositive : token.line ≠ 0) : (cutter.take token).Tells := by
  unfold Cutter.take
  split
  next hlayout => exact h.takeLayout hlayout
  next hlayout => exact h.takeToken (eq_false_of_ne_true hlayout) hpositive

theorem Tells.foldl (h : cutter.Tells) (hpositive : ∀ token ∈ tokens, token.line ≠ 0) :
    (tokens.foldl Cutter.take cutter).Tells := by
  induction tokens generalizing cutter with
  | nil => exact h
  | cons token rest ih =>
      obtain ⟨htoken, hrest⟩ := List.forall_mem_cons.mp hpositive
      exact ih (h.take htoken) hrest

theorem Tells.chunks (h : cutter.Tells) : ∀ tokens ∈ cutter.chunks.dropLast, HasWord tokens := by
  unfold Cutter.chunks
  split
  next hempty =>
    rw [h.first (List.isEmpty_iff.mp hempty)]
    exact List.forall_mem_nil _
  next =>
    rw [List.reverse_cons, List.dropLast_concat]
    exact fun tokens hmem => h.finished tokens (List.mem_reverse.mp hmem)

end Cutter

/-! ## The chunks of a text -/

theorem line_ne_zero_of_tokenize {source : List Char} (h : token ∈ tokenize source) :
    token.line ≠ 0 := by
  have htiles : Tiles [] source (tokenize source) := Scanner.tiles_tokens rfl
  obtain ⟨_, _, _, _, hcovers⟩ := htiles.exists_covers token h
  rw [Token.line, hcovers.position]
  exact Nat.succ_ne_zero _

theorem hasWord_of_cut (source : List Char) :
    ∀ tokens ∈ (cut (tokenize source)).dropLast, HasWord tokens := by
  refine (Cutter.tells_start.foldl fun token hmem => ?_).chunks
  exact line_ne_zero_of_tokenize ((List.takeWhile_prefix _).subset hmem)

/-- A word of the tokens leads a line in round or square brackets, outside of braces. -/
def HasBracketedWord (tokens : List Token) : Prop :=
  ∃ front word back, tokens = front ++ word :: back ∧ LeadsLine front word ∧
    openBraces front = 0 ∧ 0 < openGroups front

theorem HasWord.keyword_or_bracketed (h : HasWord tokens) :
    keywordIndex? 0 0 0 tokens ≠ none ∨ HasBracketedWord tokens := by
  by_cases hnone : keywordIndex? 0 0 0 tokens = none
  · obtain ⟨front, word, back, rfl, hword, hbraces⟩ := h
    have hopen := openBrackets_ne_zero hnone hword
    have hle := openBrackets_le front
    exact .inr ⟨front, word, back, rfl, hword, hbraces, by omega⟩
  · exact .inl hnone

theorem exists_of_mem_dropLast (source : List Char) (before : List String)
    (lists : List (List Token)) {chunk : Chunk}
    (h : chunk ∈ (ofTokenLists source before lists).dropLast) :
    ∃ before', ∃ tokens ∈ lists.dropLast, chunk = ofTokens source before' tokens := by
  induction lists generalizing before with
  | nil => cases h
  | cons tokens rest ih =>
      cases rest with
      | nil => cases h
      | cons next rest =>
          obtain rfl | hmem := List.mem_cons.mp h
          · exact ⟨before, tokens, List.mem_cons_self, rfl⟩
          · obtain ⟨before', other, hother, rfl⟩ := ih _ hmem
            exact ⟨before', other, List.mem_cons_of_mem _ hother, rfl⟩

/-- Every chunk but the last one has a keyword, unless one of its words starts a line in round or
square brackets. -/
theorem keyword_of_mem_dropLast (source : List Char) :
    ∀ chunk ∈ (detect source).dropLast, ∃ before, ∃ tokens ∈ cut (tokenize source),
      chunk = ofTokens source before tokens ∧
        (keywordIndex? 0 0 0 tokens ≠ none ∨ HasBracketedWord tokens) := by
  intro chunk hmem
  obtain ⟨before, tokens, htokens, rfl⟩ := exists_of_mem_dropLast source [] _ hmem
  exact ⟨before, tokens, List.mem_of_mem_dropLast htokens, rfl,
    (hasWord_of_cut source tokens htokens).keyword_or_bracketed⟩

/-- Two elements, and a directive of the first one. -/
def annotatedPair : List Char :=
  "@grabbable(snap: true)\norb \"A\" \x7b\x7d\norb \"B\" \x7b\x7d\n".toList

theorem keyword_of_annotatedPair :
    ∃ chunk ∈ (detect annotatedPair).dropLast, chunk.id = "orb:A" ∧ chunk.startLine = 1 ∧
      ∃ before, ∃ tokens ∈ cut (tokenize annotatedPair),
        chunk = ofTokens annotatedPair before tokens ∧
          (keywordIndex? 0 0 0 tokens ≠ none ∨ HasBracketedWord tokens) := by
  have hhead : (detect annotatedPair).dropLast.head?.map
      (fun chunk => (chunk.id, chunk.startLine)) = some ("orb:A", 1) := by
    decide +kernel
  obtain ⟨chunk, hchunk, hplace⟩ := Option.map_eq_some_iff.mp hhead
  obtain ⟨hid, hline⟩ := Prod.mk.inj hplace
  have hmem := List.mem_of_mem_head? hchunk
  exact ⟨chunk, hmem, hid, hline, keyword_of_mem_dropLast _ _ hmem⟩

/-- A directive with its arguments on lines of their own is cut off its element. -/
theorem not_keyword_of_mem_dropLast :
    ∃ source : List Char, Nested (tokenize source) ∧
      ¬∀ tokens ∈ (cut (tokenize source)).dropLast, keywordIndex? 0 0 0 tokens ≠ none := by
  refine ⟨"@grabbable(\nsnap: true\n)\norb \"A\" \x7b\x7d\n".toList, ?_, ?_⟩ <;> decide +kernel

end Chunk
end SceneLang
