import SceneLang.Proofs.Chunk.Cuts
import SceneLang.Proofs.Margins.Texts
import SceneLang.Proofs.Token.LineEnds

/-!
# The chunks of a text

Chunks lie one behind the other in their text.  Each of them is a piece of the text from the
beginning of a line to the end of a token, and every token, layout apart, lies in just one of them:
between two chunks a line ends, so that the line on which a chunk starts begins behind all tokens
before it.
-/

namespace SceneLang

/-! ## Lines -/

namespace Text

/-- Whole lines, if anything. -/
def EndsLine (lines : List Char) : Prop :=
  lines = [] ∨ lines.getLast? = some '\n'

theorem exists_lines (text : List Char) :
    ∃ lines line, text = lines ++ line ∧ EndsLine lines ∧ '\n' ∉ line := by
  induction text using List.reverseRecOn with
  | nil => exact ⟨[], [], rfl, .inl rfl, List.not_mem_nil⟩
  | append_singleton text c ih =>
      obtain ⟨lines, line, rfl, hlines, hline⟩ := ih
      by_cases hbreak : c = '\n'
      · subst hbreak
        exact ⟨lines ++ line ++ ['\n'], [], (List.append_nil _).symm, .inr List.getLast?_concat,
          List.not_mem_nil⟩
      · refine ⟨lines, line ++ [c], List.append_assoc .., hlines, ?_⟩
        rw [List.mem_append, List.mem_singleton, not_or]
        exact ⟨hline, fun heq => hbreak heq.symm⟩

end Text

theorem Token.Covers.start_le_stop {front inside : List Char} {token : Token}
    (h : token.Covers front inside) : token.span.start ≤ token.span.stop := by
  rw [h.span]
  dsimp only
  rw [Text.byteLength_append]
  exact Nat.le_add_right _ _

namespace Chunk

open Text (EndsLine byteLength)

theorem lineStart_lines {lines line : List Char} (hlines : EndsLine lines) (hline : '\n' ∉ line)
    (back : List Char) :
    lineStart (lines ++ line ++ back) (byteLength (lines ++ line)) = byteLength lines := by
  have hkept : ∀ c ∈ line.reverse, decide (c ≠ '\n') = true := by
    intro c hmem
    refine decide_eq_true fun heq => hline ?_
    rw [← heq]
    exact List.mem_reverse.mp hmem
  have hstops : lines.reverse.takeWhile (fun c => decide (c ≠ '\n')) = [] := by
    obtain rfl | hlast := hlines
    · rfl
    · obtain ⟨before, rfl⟩ := List.getLast?_eq_some_iff.mp hlast
      simp
  rw [lineStart, Text.cut?_append]
  dsimp only
  rw [List.reverse_append, List.takeWhile_append_of_pos hkept, hstops, List.append_nil,
    Text.byteLength_reverse, Text.byteLength_append, Nat.add_sub_cancel]

/-- A line break in front of an offset is in front of the line of that offset. -/
theorem break_le_lines {lines line rest front back : List Char} (hline : '\n' ∉ line)
    (h : lines ++ line ++ rest = front ++ '\n' :: back)
    (hle : byteLength front + 1 ≤ byteLength (lines ++ line)) :
    byteLength front + 1 ≤ byteLength lines := by
  have hbreak : byteLength (front ++ ['\n']) = byteLength front + 1 := by
    rw [Text.byteLength_append]
    rfl
  rw [← hbreak] at hle ⊢
  rw [List.append_cons] at h
  obtain ⟨inside, hinside, -⟩ := Text.exists_of_byteLength_le h.symm hle
  obtain ⟨more, rfl, -⟩ | ⟨more, hmore, rfl⟩ := List.append_eq_append_iff.mp hinside.symm
  · rw [Text.byteLength_append (front ++ ['\n'])]
    exact Nat.le_add_right _ _
  · cases hlast : more.getLast? with
    | none =>
        rw [List.getLast?_eq_none_iff.mp hlast, List.append_nil] at hmore
        rw [hmore]
    | some c =>
        have hfront := congrArg List.getLast? hmore
        rw [List.getLast?_concat, List.getLast?_append, hlast, Option.some_or] at hfront
        cases hfront
        exact absurd (List.mem_append_left _ (List.mem_of_getLast? hlast)) hline

/-! ## One chunk -/

/-- The offset behind the chunk. -/
def stopOffset (chunk : Chunk) : Nat :=
  chunk.startOffset + byteLength chunk.content

/-- The token lies within the chunk. -/
def Holds (chunk : Chunk) (token : Token) : Prop :=
  chunk.startOffset ≤ token.span.start ∧ token.span.stop ≤ chunk.stopOffset

instance (chunk : Chunk) (token : Token) : Decidable (chunk.Holds token) :=
  inferInstanceAs (Decidable (_ ∧ _))

/-- The tokens of a text that lie within the chunk, layout and the end of the text left out. -/
def tokensIn (source : List Char) (chunk : Chunk) : List Token :=
  (tokenize source).filter fun token =>
    !token.kind.isLayout && token.kind ≠ .eof && chunk.Holds token

variable {source : List Char} {before : List String} {front list : List Token}

/-- What a chunk that is cut out of a text covers, by the tokens in front of its list, those of its
list and those behind it. -/
structure Covers (source : List Char) (front list back : List Token) (chunk : Chunk) : Prop where
  piece : ∃ lines rest, source = lines ++ chunk.content ++ rest ∧
    byteLength lines = chunk.startOffset ∧ EndsLine lines
  before : ∀ token ∈ front, token.kind.isLayout = false → token.span.stop ≤ chunk.startOffset
  holds : ∀ token ∈ list, chunk.Holds token
  stop : ∀ last ∈ list.getLast?, last.span.stop = chunk.stopOffset
  behind : ∀ token ∈ back, chunk.stopOffset ≤ token.span.start
  firstLine : list.head?.map Token.line = some chunk.startLine
  lastLine : list.getLast?.map Token.line = some chunk.endLine

theorem start_le_stop_of_tokenize {token : Token} (hmem : token ∈ tokenize source) :
    token.span.start ≤ token.span.stop := by
  have htiles : Tiles [] source (tokenize source) := Scanner.tiles_tokens rfl
  obtain ⟨_, _, _, _, hcovers⟩ := htiles.exists_covers token hmem
  exact hcovers.start_le_stop

theorem stop_le_byteLength_of_tokenize {token : Token} (hmem : token ∈ tokenize source) :
    token.span.stop ≤ byteLength source := by
  have htiles : Tiles [] source (tokenize source) := Scanner.tiles_tokens rfl
  obtain ⟨_, _, _, hall, hcovers⟩ := htiles.exists_covers token hmem
  rw [hcovers.span, hall]
  simp only [Text.byteLength_append, List.nil_append]
  omega

/-- Where a gap separates a token from those in front of it a line ends between them. -/
theorem exists_break {first : Token} {back : List Token}
    (hsplit : tokenize source = front ++ first :: back) (hseparates : Separates front)
    (hfirst : first.span.start < byteLength source) :
    ∀ token ∈ front, token.kind.isLayout = false → ∃ left right, source = left ++ '\n' :: right ∧
      token.span.stop ≤ byteLength left ∧ byteLength left + 1 ≤ first.span.start := by
  intro token hmem hlayout
  obtain hgap | ⟨earlier, last, mark, gap, rfl, hlast, hmark, hgap⟩ := hseparates
  · rw [hgap token hmem] at hlayout
    contradiction
  have hsplit : tokenize source = earlier ++ [last] ++ mark :: (gap ++ first :: back) := by
    rw [hsplit]
    simp
  have htiles : Tiles [] source (tokenize source) := Scanner.tiles_tokens rfl
  have hordered := htiles.ordered
  rw [hsplit, List.pairwise_append, List.pairwise_cons] at hordered
  obtain ⟨-, ⟨hbehind, -⟩, hbefore⟩ := hordered
  have hbehind := hbehind first (List.mem_append_right _ List.mem_cons_self)
  have hin : token ∈ earlier ++ [last] := by
    rw [List.append_cons, List.mem_append, List.mem_cons] at hmem
    obtain hmem | rfl | hmem := hmem
    · exact hmem
    · rw [hlayout] at hmark
      contradiction
    · rw [hgap token hmem] at hlayout
      contradiction
  have hbefore := hbefore token hin mark List.mem_cons_self
  rw [List.append_assoc, List.singleton_append] at hsplit
  obtain ⟨left, right, hbreak, hspan⟩ | hend := lineEnd_of_tokenize hsplit hlast hmark
  · rw [hspan] at hbehind hbefore
    exact ⟨left, right, hbreak, hbefore, hbehind⟩
  · have hmem : mark ∈ tokenize source := by simp [hsplit]
    have hpoint := start_le_stop_of_tokenize hmem
    omega

/-- Where a gap separates a token from those in front of it, these end before its line. -/
theorem stop_le_of_separates {first : Token} {back : List Token} {lines line rest : List Char}
    (hsplit : tokenize source = front ++ first :: back) (hseparates : Separates front)
    (hfirst : first.span.start < byteLength source) (hsource : source = lines ++ line ++ rest)
    (hline : '\n' ∉ line) (hstart : first.span.start = byteLength (lines ++ line)) :
    ∀ token ∈ front, token.kind.isLayout = false → token.span.stop ≤ byteLength lines := by
  intro token hmem hlayout
  obtain ⟨left, right, hbreak, hbefore, hafter⟩ :=
    exists_break hsplit hseparates hfirst token hmem hlayout
  have hlines := break_le_lines hline (hsource.symm.trans hbreak) (hstart ▸ hafter)
  omega

/-- Tokens in order lie between the start of the first and the end of the last of them. -/
theorem between_of_ordered {tokens : List Token} {first last : Token}
    (hordered : tokens.Pairwise fun a b => a.span.stop ≤ b.span.start)
    (hvalid : ∀ token ∈ tokens, token.span.start ≤ token.span.stop)
    (hfirst : tokens.head? = some first) (hlast : tokens.getLast? = some last) :
    ∀ token ∈ tokens, first.span.start ≤ token.span.start ∧ token.span.stop ≤ last.span.stop := by
  intro token hmem
  have htoken := hvalid token hmem
  constructor
  · obtain ⟨rest, rfl⟩ := List.head?_eq_some_iff.mp hfirst
    have hvalid := hvalid first List.mem_cons_self
    obtain rfl | hmem := List.mem_cons.mp hmem
    · exact Nat.le_refl _
    · exact Nat.le_trans hvalid (List.rel_of_pairwise_cons hordered hmem)
  · obtain ⟨earlier, rfl⟩ := List.getLast?_eq_some_iff.mp hlast
    have hvalid := hvalid last (List.mem_append_right _ List.mem_cons_self)
    obtain hmem | hmem := List.mem_append.mp hmem
    · exact Nat.le_trans ((List.pairwise_append.mp hordered).2.2 token hmem last
        List.mem_cons_self) hvalid
    · rw [List.mem_singleton.mp hmem]

/-- A chunk reaches from the beginning of the line of its first token to the end of its last one. -/
theorem exists_piece {first last : Token} (hfirst : list.head? = some first)
    (hlast : list.getLast? = some last) (hmem : first ∈ tokenize source)
    (hmem' : last ∈ tokenize source) (hle : first.span.start ≤ last.span.stop)
    (before : List String) :
    ∃ lines line rest rest', source = lines ++ (ofTokens source before list).content ++ rest ∧
      source = lines ++ line ++ rest' ∧ EndsLine lines ∧ '\n' ∉ line ∧
      first.span.start = byteLength (lines ++ line) ∧
      (ofTokens source before list).startOffset = byteLength lines ∧
      (ofTokens source before list).stopOffset = last.span.stop := by
  have htiles : Tiles [] source (tokenize source) := Scanner.tiles_tokens rfl
  obtain ⟨earlier, inside, rest, hsource, hcovers⟩ := htiles.exists_covers first hmem
  obtain ⟨lines, line, rfl, hlines, hline⟩ := Text.exists_lines earlier
  obtain ⟨earlier', inside', rest', hsource', hcovers'⟩ := htiles.exists_covers last hmem'
  rw [List.nil_append] at hcovers hcovers'
  rw [List.append_assoc] at hsource
  have hstart : first.span.start = byteLength (lines ++ line) := by rw [hcovers.span]
  have hstop : last.span.stop = byteLength (earlier' ++ inside') := by rw [hcovers'.span]
  have hfrom : lineStart source first.span.start = byteLength lines := by
    rw [hstart, hsource, lineStart_lines hlines hline]
  obtain ⟨content, hcontent, -⟩ : ∃ content, earlier' ++ inside' = lines ++ content ∧ _ :=
    Text.exists_of_byteLength_le
      ((List.append_assoc lines line _).symm.trans (hsource.symm.trans hsource')) (by
        rw [← hstop]
        rw [hstart, Text.byteLength_append] at hle
        omega)
  have hoffset : (ofTokens source before list).startOffset = byteLength lines := by
    change lineStart source ((list.head?.map (·.span.start)).getD 0) = _
    rw [hfirst]
    exact hfrom
  have hpiece : (ofTokens source before list).content = content := by
    change Text.slice source (lineStart source ((list.head?.map (·.span.start)).getD 0))
      ((list.getLast?.map (·.span.stop)).getD 0) = _
    rw [hfirst, hlast, Option.map_some, Option.map_some, Option.getD_some, Option.getD_some, hfrom,
      hstop, hcontent, hsource', hcontent, List.append_assoc, Text.slice_between]
  refine ⟨lines, line, rest', inside ++ rest, ?_, hsource, hlines, hline, hstart, hoffset, ?_⟩
  · rw [hpiece, ← hcontent, hsource']
  · rw [stopOffset, hoffset, hpiece, hstop, hcontent, Text.byteLength_append]

/-- A list of tokens with a gap in front of it makes up a chunk. -/
theorem covers_ofTokens {back : List Token} (hsplit : tokenize source = front ++ list ++ back)
    (hseparates : Separates front) (hframed : Framed list) (hend : ∀ token ∈ list, token.kind ≠ .eof)
    (before : List String) : Covers source front list back (ofTokens source before list) := by
  obtain ⟨first, hfirst, hkind⟩ := hframed.first
  obtain ⟨last, hlast, -⟩ := hframed.last
  have hfirstMem := List.mem_of_mem_head? hfirst
  have hlastMem := List.mem_of_getLast? hlast
  have hmem : ∀ token ∈ list, token ∈ tokenize source := fun token hmem =>
    hsplit ▸ List.mem_append_left _ (List.mem_append_right _ hmem)
  have htiles : Tiles [] source (tokenize source) := Scanner.tiles_tokens rfl
  have hordered := htiles.ordered
  rw [hsplit, List.pairwise_append, List.pairwise_append] at hordered
  obtain ⟨⟨-, hordered, -⟩, -, hbehind⟩ := hordered
  have hbetween := between_of_ordered hordered
    (fun token hin => start_le_stop_of_tokenize (hmem token hin)) hfirst hlast
  have hnonempty := start_lt_stop_of_tokenize (hmem _ hfirstMem) hkind (hend _ hfirstMem)
  have hinside : first.span.stop ≤ last.span.stop := (hbetween first hfirstMem).2
  obtain ⟨lines, line, rest, rest', hpiece, hsource, hlines, hline, hstart, hoffset, hstop⟩ :=
    exists_piece hfirst hlast (hmem _ hfirstMem) (hmem _ hlastMem) (by omega) before
  have hfirstLine : byteLength lines ≤ first.span.start := by
    rw [hstart, Text.byteLength_append]
    exact Nat.le_add_right _ _
  constructor
  · exact ⟨lines, rest, hpiece, hoffset.symm, hlines⟩
  · obtain ⟨others, rfl⟩ := List.head?_eq_some_iff.mp hfirst
    have hsplit : tokenize source = front ++ first :: (others ++ back) := by simp [hsplit]
    have hwithin := stop_le_byteLength_of_tokenize (hmem _ hfirstMem)
    rw [hoffset]
    exact stop_le_of_separates hsplit hseparates (by omega) hsource hline hstart
  · intro token hin
    obtain ⟨hfrom, huntil⟩ := hbetween token hin
    rw [Holds, hoffset, hstop]
    exact ⟨Nat.le_trans hfirstLine hfrom, huntil⟩
  · intro other hother
    rw [Option.mem_unique hother hlast, hstop]
  · intro token hin
    rw [hstop]
    exact hbehind last (List.mem_append_right _ hlastMem) token hin
  · change _ = some ((list.head?.map Token.line).getD 0)
    rw [hfirst]
    rfl
  · change _ = some ((list.getLast?.map Token.line).getD 0)
    rw [hlast]
    rfl

/-- The tokens within a chunk are those of its list. -/
theorem Covers.tokensIn_eq {back : List Token} {chunk : Chunk}
    (h : Covers source front list back chunk) (hsplit : tokenize source = front ++ list ++ back)
    (hend : ∀ token ∈ list, token.kind ≠ .eof) :
    chunk.tokensIn source = list.filter fun token => !token.kind.isLayout := by
  have hnonempty {token : Token} (hmem : token ∈ tokenize source)
      (hlayout : token.kind.isLayout = false) (heof : token.kind ≠ .eof) :=
    start_lt_stop_of_tokenize hmem hlayout heof
  rw [tokensIn]
  rw [hsplit] at hnonempty ⊢
  have hfront : front.filter (fun token =>
      !token.kind.isLayout && token.kind ≠ .eof && chunk.Holds token) = [] := by
    rw [List.filter_eq_nil_iff]
    intro token hmem hheld
    simp only [Bool.and_eq_true, Bool.not_eq_true', decide_eq_true_eq] at hheld
    have hbefore := h.before token hmem hheld.1.1
    have hless := hnonempty (by simp [hmem]) hheld.1.1 hheld.1.2
    have hstart := hheld.2.1
    omega
  have hback : back.filter (fun token =>
      !token.kind.isLayout && token.kind ≠ .eof && chunk.Holds token) = [] := by
    rw [List.filter_eq_nil_iff]
    intro token hmem hheld
    simp only [Bool.and_eq_true, Bool.not_eq_true', decide_eq_true_eq] at hheld
    have hbehind := h.behind token hmem
    have hless := hnonempty (by simp [hmem]) hheld.1.1 hheld.1.2
    have hstop := hheld.2.2
    omega
  rw [List.filter_append, List.filter_append, hfront, hback, List.nil_append, List.append_nil]
  apply List.filter_congr
  intro token hmem
  simp [h.holds token hmem, hend token hmem]

theorem Framed.filter_ends {tokens : List Token} (h : Framed tokens) :
    ((tokens.filter fun token => !token.kind.isLayout).head? = tokens.head?) ∧
      (tokens.filter fun token => !token.kind.isLayout).getLast? = tokens.getLast? := by
  obtain ⟨first, hfirst, hkind⟩ := h.first
  obtain ⟨last, hlast, hkind'⟩ := h.last
  constructor
  · obtain ⟨rest, rfl⟩ := List.head?_eq_some_iff.mp hfirst
    simp [hkind]
  · obtain ⟨earlier, rfl⟩ := List.getLast?_eq_some_iff.mp hlast
    simp [List.filter_append, hkind']

/-! ## All chunks -/

theorem mem_ofTokenLists {lists : List (List Token)} {chunk : Chunk}
    (h : chunk ∈ ofTokenLists source before lists) :
    ∃ list ∈ lists, ∃ before, chunk = ofTokens source before list := by
  induction lists generalizing before with
  | nil => cases h
  | cons list rest ih =>
      obtain rfl | hmem := List.mem_cons.mp h
      · exact ⟨list, List.mem_cons_self, before, rfl⟩
      · obtain ⟨other, hother, hchunk⟩ := ih hmem
        exact ⟨other, List.mem_cons_of_mem _ hother, hchunk⟩

theorem exists_mem_ofTokenLists (source : List Char) (before : List String)
    {lists : List (List Token)} (h : list ∈ lists) :
    ∃ before', ofTokens source before' list ∈ ofTokenLists source before lists := by
  induction lists generalizing before with
  | nil => cases h
  | cons other rest ih =>
      obtain rfl | hmem := List.mem_cons.mp h
      · exact ⟨before, List.mem_cons_self⟩
      · obtain ⟨before', hchunk⟩ := ih _ hmem
        exact ⟨before', List.mem_cons_of_mem _ hchunk⟩

theorem pairwise_ofTokenLists {lists : List (List Token)} {related : Chunk → Chunk → Prop}
    (h : lists.Pairwise fun a b => ∀ before before',
      related (ofTokens source before a) (ofTokens source before' b)) :
    (ofTokenLists source before lists).Pairwise related := by
  induction lists generalizing before with
  | nil => exact .nil
  | cons list rest ih =>
      obtain ⟨hfirst, hrest⟩ := List.pairwise_cons.mp h
      refine .cons (fun chunk hmem => ?_) (ih hrest)
      obtain ⟨other, hother, before', rfl⟩ := mem_ofTokenLists hmem
      exact hfirst other hother before before'

/-- The front that a list of a text is cut out behind, and what its chunk covers. -/
theorem CutBehind.covers
    (h : CutBehind ((tokenize source).takeWhile (·.kind ≠ .eof)) front list) :
    ∃ back, tokenize source = front ++ list ++ back ∧ (∀ token ∈ list, token.kind ≠ .eof) ∧
      ∀ before, Covers source front list back (ofTokens source before list) := by
  obtain ⟨back, hback⟩ := h.split
  have hend : ∀ token ∈ list, token.kind ≠ .eof := by
    intro token hmem
    have hin : token ∈ (tokenize source).takeWhile (·.kind ≠ .eof) := by
      rw [hback]
      exact List.mem_append_left _ (List.mem_append_right _ hmem)
    simpa using List.mem_takeWhile_imp hin
  obtain ⟨back, hsplit⟩ := (h.append ((tokenize source).dropWhile (·.kind ≠ .eof))).split
  rw [List.takeWhile_append_dropWhile] at hsplit
  exact ⟨back, hsplit, hend, covers_ofTokens hsplit h.separates h.framed hend⟩

/-- Chunks lie one behind the other.  Each is a piece of the text that starts with a line, and goes
from the line of its first token to that of its last one.  Every token but layout and the end lies
in one of them, and the others do not touch it. -/
theorem detect_partitions (source : List Char) :
    (detect source).Pairwise (fun a b => a.stopOffset ≤ b.startOffset) ∧
    (∀ chunk ∈ detect source,
      (∃ lines rest, source = lines ++ chunk.content ++ rest ∧
        byteLength lines = chunk.startOffset ∧ EndsLine lines) ∧
      (chunk.tokensIn source).head?.map Token.line = some chunk.startLine ∧
      (chunk.tokensIn source).getLast?.map Token.line = some chunk.endLine) ∧
    ∀ token ∈ tokenize source, token.kind.isLayout = false → token.kind ≠ .eof →
      ∃ front chunk back, detect source = front ++ chunk :: back ∧ chunk.Holds token ∧
        ∀ other ∈ front ++ back,
          other.stopOffset ≤ token.span.start ∨ token.span.stop ≤ other.startOffset := by
  have hcuts := cuts_cut (tokenize source)
  obtain ⟨hbehind, hpairwise⟩ := hcuts.behind
  have hordered : (detect source).Pairwise fun a b => a.stopOffset ≤ b.startOffset := by
    refine pairwise_ofTokenLists (hpairwise.imp_of_mem ?_)
    rintro a b ha - ⟨front, hcut, hsub⟩ before before'
    obtain ⟨-, front', hcut'⟩ := hbehind a ha
    obtain ⟨_, _, _, hcovers⟩ := hcut.covers
    obtain ⟨_, _, _, hcovers'⟩ := hcut'.covers
    obtain ⟨last, hlast, hkind⟩ := hcut'.framed.last
    rw [← (hcovers' before).stop last hlast]
    exact (hcovers before').before last (hsub (List.mem_of_getLast? hlast)) hkind
  refine ⟨hordered, fun chunk hmem => ?_, fun token hmem hlayout heof => ?_⟩
  · obtain ⟨list, hlist, before, rfl⟩ := mem_ofTokenLists hmem
    obtain ⟨-, front, hcut⟩ := hbehind list hlist
    obtain ⟨back, hsplit, hend, hcovers⟩ := hcut.covers
    have hcovers := hcovers before
    obtain ⟨hhead, hlast⟩ := hcut.framed.filter_ends
    rw [hcovers.tokensIn_eq hsplit hend, hhead, hlast]
    exact ⟨hcovers.piece, hcovers.firstLine, hcovers.lastLine⟩
  · obtain ⟨list, hlist, htoken⟩ := hcuts.exists_mem (mem_takeWhile_tokenize hmem heof) hlayout
    obtain ⟨-, front, hcut⟩ := hbehind list hlist
    obtain ⟨_, _, _, hcovers⟩ := hcut.covers
    obtain ⟨before, hchunk⟩ := exists_mem_ofTokenLists source [] hlist
    have hholds := (hcovers before).holds token htoken
    obtain ⟨front, back, hsplit⟩ := List.append_of_mem hchunk
    refine ⟨front, _, back, hsplit, hholds, fun other hother => ?_⟩
    rw [detect, hsplit, List.pairwise_append, List.pairwise_cons] at hordered
    obtain ⟨-, ⟨hafter, -⟩, hbefore⟩ := hordered
    obtain hother | hother := List.mem_append.mp hother
    · exact .inl (Nat.le_trans (hbefore other hother _ List.mem_cons_self) hholds.1)
    · exact .inr (Nat.le_trans hholds.2 (hafter other hother))

end Chunk
end SceneLang
