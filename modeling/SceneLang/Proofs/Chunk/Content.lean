import SceneLang.Proofs.Token.LineStarts

/-!
# The content of chunks

The content of a chunk is read on its own to the tokens that the chunk is made of, layout apart:
it starts where the scanner begins a line, and behind its last token there is layout.  The
exception is a chunk whose line starts within a comment.
-/

namespace SceneLang

open Movable (move)
open Text (EndsLine byteLength)

/-! ## Places -/

theorem Text.append_inj_of_byteLength {front back front' back' : List Char}
    (h : front ++ back = front' ++ back') (hlength : byteLength front = byteLength front') :
    front = front' ∧ back = back' := by
  obtain ⟨inside, rfl, rfl⟩ := Text.exists_of_byteLength_le h (Nat.le_of_eq hlength)
  obtain ⟨other, hother, -⟩ := Text.exists_of_byteLength_le h.symm (Nat.le_of_eq hlength.symm)
  have hnone : inside = [] := by
    have hlengths := congrArg List.length hother
    simp only [List.length_append] at hlengths
    exact List.eq_nil_of_length_eq_zero (by omega)
  subst hnone
  exact ⟨(List.append_nil _).symm, rfl⟩

/-- Whole lines in front of a place lie in front of its line. -/
theorem Text.EndsLine.prefix_of_line {lead lines line : List Char} (h : EndsLine lead)
    (hline : '\n' ∉ line) (hstarts : lead <+: lines ++ line) : lead <+: lines := by
  obtain rfl | hlast := h
  · exact List.nil_prefix
  obtain ⟨others, hothers⟩ := hstarts
  obtain ⟨more, rfl, -⟩ | ⟨more, rfl, rfl⟩ := List.append_eq_append_iff.mp hothers
  · exact List.prefix_append _ _
  · by_cases hmore : more = []
    · rw [hmore, List.append_nil]
    · rw [List.getLast?_append_of_ne_nil _ hmore] at hlast
      exact absurd (List.mem_append_left _ (List.mem_of_getLast? hlast)) hline

namespace Cursor

/-- Behind whole lines a text stands as many lines down as there are. -/
theorem behind_of_endsLine {lines : List Char} (h : EndsLine lines) (rest : List Char) (ids : Nat) :
    behind lines rest = move ⟨lines.count '\n', byteLength lines, ids⟩ (ofText rest) := by
  obtain rfl | hlast := h
  · rfl
  · obtain ⟨before, rfl⟩ := List.getLast?_eq_some_iff.mp hlast
    exact behind_of_break before rest ids

theorem In.eq_behind {text front rest : List Char} {cursor : Cursor} (h : cursor.In text)
    (htext : text = front ++ rest) (hoffset : cursor.offset = byteLength front) :
    cursor = behind front rest := by
  obtain ⟨front', rest', hsplit, rfl⟩ := h
  obtain ⟨rfl, rfl⟩ := Text.append_inj_of_byteLength (hsplit.symm.trans htext) hoffset
  rfl

end Cursor

namespace Scanner

variable {s next : Scanner} {token : Token} {tokens emitted : List Token} {text : List Char}

/-! ## Single tokens -/

/-- A token that is no layout is found at a character, and nothing is owed there. -/
theorem Emits.owed_of_emit (h : Emits (ofText text) emitted s) (hstep : s.step = .emit token next)
    (hlayout : token.kind.isLayout = false) : s.owed = [] ∧ s.cursor.rest ≠ [] := by
  have hmoves := hstep ▸ moves_step s
  cases hmoves with
  | owed howed =>
      obtain hkind | hkind := h.layered.owed _ (howed ▸ List.mem_cons_self) <;>
        simp [mark, hkind, TokenKind.isLayout] at hlayout
  | endLine | endLevel | breakLine => contradiction
  | lexeme howed hrest => exact ⟨howed, by simp [hrest]⟩

theorem exists_scan_of_isNameStart {c : Char} (hc : Lexeme.isNameStart c = true) (afterValue : Bool)
    (rest : List Char) : ∃ lexeme, Lexeme.scan afterValue c rest = some lexeme := by
  unfold Lexeme.scan
  dsimp only
  rw [hc, if_pos rfl]
  repeat' split
  all_goals exact ⟨_, rfl⟩

/-- A hash sign that is a token stands in front of a name. -/
theorem isPlain_behind_hash {rest : List Char} (hstep : s.step = .emit token next)
    (hlayout : token.kind.isLayout = false) (howed : s.owed = [])
    (hrest : s.cursor.rest = '#' :: rest) (hnext : next.cursor.rest = rest)
    (hwithin : next.WithinLine) :
    ∃ name others, next.tokens = name :: others ∧ name.isPlain = true := by
  have htrivia : Lexeme.triviaWidth s.lineHasToken ('#' :: rest) = 0 := by
    have hmoves := hstep ▸ moves_step s
    cases hmoves with
    | owed hsome => simp [howed] at hsome
    | endLine | endLevel | breakLine => contradiction
    | lexeme _ hother htrivia => rwa [← hother, hrest] at htrivia
  rw [Lexeme.triviaWidth] at htrivia
  obtain _ | ⟨c, rest⟩ := rest
  · simp [Lexeme.marksName] at htrivia
  have hname : Lexeme.isNameStart c = true := by
    by_contra hother
    simp [Lexeme.marksName, hother] at htrivia
  obtain ⟨lexeme, hscan⟩ := exists_scan_of_isNameStart hname next.afterValue rest
  have hemit := step_of_lexeme hwithin.owed hwithin.atLineStart hnext
    (Lexeme.triviaWidth_of_isNameStart hname _ _) (Lexeme.ne_of_isNameStart hname (by decide)) hscan
  refine ⟨_, _, tokens_of_emit hemit, ?_⟩
  obtain ⟨hkind, heof⟩ := Lexeme.solid_of_scan hscan
  simp [Token.isPlain, hkind, heof]

/-! ## The start of an excerpt -/

/-- From the start of a line a scanner reads an excerpt as if it were a whole text. -/
theorem Opening.excerpt {lines content rest : List Char} (h : Opening s) (hlines : EndsLine lines)
    (hcursor : s.cursor = .behind lines (content ++ rest)) (ids : Nat) :
    Excerpt rest s (move ⟨lines.count '\n', byteLength lines, ids⟩ (ofText content)) := by
  refine ⟨⟨content, [], [], by rw [hcursor]; rfl, ?_⟩, ?_, fun _ => ⟨h.lineHasToken, h.groups⟩,
    fun _ => h.afterValue⟩
  · have hmoved := Cursor.behind_of_endsLine hlines content ids
    rw [Scanner.excerpt, hcursor, h.atLineStart, h.lineHasToken, h.groups, h.afterValue]
    exact congrArg (Scanner.mk · [] [] true false 0 false) hmoved.symm
  · rw [h.owed]
    exact List.forall_mem_nil _

/-- Where a gap separates a token from those before it, the scanner comes to it from the start of a
line, over layout only. -/
theorem exists_start {source : List Char} {front back : List Token} {first : Token}
    (hsplit : tokenize source = front ++ first :: back) (hseparates : Chunk.Separates front)
    (hfirst : first.isPlain = true) :
    ∃ passed start gap before after lead rest, Emits (ofText source) passed start ∧
      Emits start gap before ∧ before.step = .emit first after ∧ after.tokens = back ∧
      (∀ token ∈ gap, token.kind.isLayout = true) ∧ Opening start ∧ source = lead ++ rest ∧
      start.cursor = .behind lead rest ∧ EndsLine lead := by
  obtain ⟨hlayout, heof⟩ := Token.isPlain_iff.mp hfirst
  obtain ⟨before, after, hrun, hstep, hafter⟩ := exists_emits_of_tokens hsplit heof
  obtain hgap | ⟨earlier, last, mark, gap, rfl, hlast, hmark, hgap⟩ := hseparates
  · exact ⟨[], _, front, before, after, [], source, .refl _, hrun, hstep, hafter, hgap,
      ⟨⟨rfl, rfl, rfl⟩, rfl, rfl⟩, rfl, rfl, .inl rfl⟩
  rw [List.append_cons] at hrun
  obtain ⟨middle, start, hpassed, hend, hrest⟩ := hrun.cut
  have hwithin := hpassed.lined.within last List.getLast?_concat hlast
  have hstart := hpassed.append (.emit hend (.refl start))
  have hmoves := hend ▸ moves_step middle
  cases hmoves with
  | owed howed =>
      rw [hwithin.owed] at howed
      contradiction
  | endLine _ hnil =>
      -- No token is found behind the end of the text.
      have hlength := hrest.length_le
      have hnil : middle.cursor.rest.length = 0 := by rw [hnil]; rfl
      have hbefore := (hstart.append hrest).owed_of_emit hstep hlayout
      exact absurd (List.eq_nil_of_length_eq_zero (Nat.eq_zero_of_le_zero (hnil ▸ hlength)))
        hbefore.2
  | endLevel _ _ hline =>
      rw [hwithin.lineHasToken] at hline
      contradiction
  | @breakLine rest howed hbreak hgroups =>
      obtain ⟨lead, others, rfl, hcursor⟩ := hpassed.in
      rw [hcursor, Cursor.rest_behind] at hbreak
      subst hbreak
      refine ⟨_, _, gap, before, after, lead ++ ['\n'], rest, hstart, hrest, hstep,
        hafter, hgap, ⟨⟨rfl, hgroups, rfl⟩, howed, rfl⟩, by simp, ?_, .inr List.getLast?_concat⟩
      rw [hcursor, Cursor.next_behind]
  | lexeme _ _ _ hscan => exact absurd hmark (Bool.eq_false_iff.mp (Lexeme.solid_of_scan hscan).1)

/-- The scanner comes to such a token by the start of its line, unless that is in a comment. -/
theorem exists_opening_of_line {source lines line rest : List Char} {front back : List Token}
    {first : Token} (hsplit : tokenize source = front ++ first :: back)
    (hseparates : Chunk.Separates front) (hfirst : first.isPlain = true)
    (hsource : source = lines ++ line ++ rest) (hlines : EndsLine lines) (hline : '\n' ∉ line)
    (hstart : first.span.start = byteLength (lines ++ line)) :
    InComment source (byteLength lines) ∨ ∃ passed opening gap,
      Emits (ofText source) passed opening ∧ Opening opening ∧
        opening.cursor = .behind lines (line ++ rest) ∧
          opening.tokens = gap ++ first :: back ∧ ∀ token ∈ gap, token.kind.isLayout = true := by
  obtain ⟨passed, start, gap, before, after, lead, others, hpassed, hrun, hstep, hafter, hgap,
    hopening, hlead, hcursor, hends⟩ := exists_start hsplit hseparates hfirst
  have hbefore := hpassed.append hrun
  obtain ⟨howed, hrest⟩ := hbefore.owed_of_emit hstep (Token.isPlain_iff.mp hfirst).1
  have hat : before.cursor = .behind (lines ++ line) rest := by
    obtain ⟨front', rest', -, hbehind⟩ := hbefore.in
    obtain ⟨width, -, hcovers⟩ := covers_of_emit hstep hbehind
    refine hbefore.in.eq_behind hsource ?_
    rw [← hstart, hcovers.span, hbehind]
    rfl
  have htokens {start : Scanner} {gap : List Token} (hrun : Emits start gap before) :
      start.tokens = gap ++ first :: back := by
    rw [hrun.tokens_eq, tokens_of_emit hstep, hafter]
  have hstarts : lead <+: lines ++ line := by
    refine List.prefix_of_prefix_length_le ⟨others, hlead.symm⟩ ⟨rest, hsource.symm⟩ ?_
    have hlength := congrArg List.length (hlead.symm.trans hsource)
    have hle := hrun.length_le
    rw [hat, hcursor, Cursor.rest_behind, Cursor.rest_behind] at hle
    simp only [List.length_append] at hlength ⊢
    omega
  obtain ⟨more, rfl⟩ := hends.prefix_of_line hline hstarts
  rw [List.append_assoc] at hsource
  by_cases hmore : more = []
  · subst hmore
    rw [List.append_nil] at hsource ⊢
    refine .inr ⟨passed, start, gap, hpassed, hopening, ?_, htokens hrun, hgap⟩
    rw [hcursor, List.append_cancel_left (hlead.symm.trans hsource)]
  · obtain ⟨passed, opening, gap', hpassed, hrun, hgap', hopening, hcursor⟩ | hcomment :=
      hrun.exists_opening hsource hlines (by rwa [hat] at hrest) hat hgap hpassed
        hopening.toIdle hlead hcursor (by simpa using List.length_pos_iff.mpr hmore)
    · exact .inr ⟨passed, opening, gap', hpassed, hopening, hcursor, htokens hrun, hgap'⟩
    · exact .inl hcomment

/-- From the start of a line up to a token, the text on its own has the tokens found there. -/
theorem Opening.tokens_eq {source lines content rest : List Char}
    {passed gap init back : List Token} {last : Token} (h : Opening s) (hpassed : Emits (ofText source) passed s)
    (hsource : source = lines ++ content ++ rest) (hlines : EndsLine lines)
    (hcursor : s.cursor = .behind lines (content ++ rest))
    (htokens : s.tokens = gap ++ init ++ last :: back)
    (hgap : ∀ token ∈ gap, token.kind.isLayout = true) (hlast : last.isPlain = true)
    (hstop : last.span.stop = byteLength (lines ++ content))
    (hback : ∀ next ∈ back.head?, next.isPlain = false) :
    (move (⟨lines.count '\n', byteLength lines, 0⟩ : Shift) (tokenize content)).filter
      Token.isPlain = (init ++ [last]).filter Token.isPlain := by
  obtain ⟨hlayout, heof⟩ := Token.isPlain_iff.mp hlast
  obtain ⟨before, after, hrun, hstep, hafter⟩ := exists_emits_of_tokens htokens heof
  have hbefore := hpassed.append hrun
  have hbehind := hbefore.append (.emit hstep (.refl after))
  obtain ⟨howed, hrest⟩ := hbefore.owed_of_emit hstep hlayout
  have hat : after.cursor.rest = rest := by
    obtain ⟨front', rest', -, hplace⟩ := hbefore.in
    obtain ⟨width, hnext, hcovers⟩ := covers_of_emit hstep hplace
    rw [hplace, Cursor.skip_behind] at hnext
    rw [hcovers.span] at hstop
    rw [hbehind.in.eq_behind hsource (hnext ▸ hstop)]
    rfl
  have hstart : before.atLineStart = false := by
    refine eq_false_of_ne_true fun hstart => ?_
    rw [step_of_lineStart howed hstart (hbefore.lined.outside hstart)] at hstep
    contradiction
  have hlong : rest.length < before.cursor.rest.length := by
    rw [← hat]
    exact rest_lt_of_step howed hstart hrest (by rw [hstep]; rfl)
  have hhash : before.cursor.rest ≠ '#' :: rest := by
    intro hhash
    have hwithin := hbehind.lined.within last (by simp) hlayout
    obtain ⟨name, others, hname, hplain⟩ :=
      isPlain_behind_hash hstep hlayout howed hhash hat hwithin
    rw [hafter] at hname
    rw [hback name (by rw [hname]; rfl)] at hplain
    contradiction
  have hsame := (h.excerpt hlines hcursor 0).tokens_eq hrun hstep hlayout hlong hat hhash
  rw [tokens_move, List.append_assoc, List.filter_append,
    Token.filter_isPlain_of_layout hgap] at hsame
  exact hsame

end Scanner

namespace Chunk

variable {source : List Char} {list : List Token}

/-- The tokens of a chunk are a part of those of the text, in front of layout or the end. -/
theorem exists_split_of_cut (h : list ∈ cut (tokenize source)) :
    ∃ front back, tokenize source = front ++ list ++ back ∧ Separates front ∧ Framed list ∧
      (∀ token ∈ list, token.kind ≠ .eof) ∧ ∀ next ∈ back.head?, next.isPlain = false := by
  obtain ⟨front, back, hsplit, hseparates, hframed, hback⟩ := (cuts_cut _).exists_split list h
  have htokens := List.takeWhile_append_dropWhile (p := (·.kind ≠ .eof)) (l := tokenize source)
  refine ⟨front, back ++ (tokenize source).dropWhile (·.kind ≠ .eof), ?_, hseparates, hframed,
    fun token hmem => ?_, fun next hnext => ?_⟩
  · rw [← List.append_assoc, ← hsplit, htokens]
  · have hin : token ∈ (tokenize source).takeWhile (·.kind ≠ .eof) := by
      rw [hsplit]
      exact List.mem_append_left _ (List.mem_append_right _ hmem)
    simpa using List.mem_takeWhile_imp hin
  · cases back with
    | nil =>
        have heof := List.head?_dropWhile_not (fun token => decide (token.kind ≠ .eof))
          (tokenize source)
        rw [List.nil_append, Option.mem_def] at hnext
        rw [hnext] at heof
        simp_all [Token.isPlain]
    | cons other back => exact Token.isPlain_of_layout (hback next hnext)

/-- The content of the chunk has these tokens on its own, but for layout, if they are counted from
the place of the chunk. -/
def ReadsAs (chunk : Chunk) (tokens : List Token) : Prop :=
  (move (⟨chunk.startLine - 1, chunk.startOffset, 0⟩ : Shift) (tokenize chunk.content)).filter
    Token.isPlain = tokens.filter Token.isPlain

instance (chunk : Chunk) (tokens : List Token) : Decidable (chunk.ReadsAs tokens) :=
  inferInstanceAs (Decidable (_ = _))

theorem readsAs_of_cut (h : list ∈ cut (tokenize source)) (before : List String) :
    InComment source (ofTokens source before list).startOffset ∨
      (ofTokens source before list).ReadsAs list := by
  obtain ⟨front, back, hsplit, hseparates, hframed, hend, hback⟩ := exists_split_of_cut h
  have hcovers := covers_ofTokens hsplit hseparates hframed hend before
  obtain ⟨first, hfirst, hkind⟩ := hframed.first
  obtain ⟨last, hlast, hkind'⟩ := hframed.last
  have hmem : ∀ token ∈ list, token ∈ tokenize source := fun token hmem =>
    hsplit ▸ List.mem_append_left _ (List.mem_append_right _ hmem)
  have hfirstMem := List.mem_of_mem_head? hfirst
  have hlastMem := List.mem_of_getLast? hlast
  have hle : first.span.start ≤ last.span.stop := by
    have hholds := (hcovers.holds first hfirstMem).2
    rw [← hcovers.stop last hlast] at hholds
    exact (start_le_stop_of_tokenize (hmem first hfirstMem)).trans hholds
  obtain ⟨lines, line, rest, rest', hpiece, hsource, hlines, hline, hstart, hoffset, hstop⟩ :=
    exists_piece hfirst hlast (hmem first hfirstMem) (hmem last hlastMem) hle before
  have hfirstLine : (ofTokens source before list).startLine = lines.count '\n' + 1 := by
    have htiles : Tiles [] source (tokenize source) := Scanner.tiles_tokens rfl
    obtain ⟨earlier, inside, after, hearlier, hplace⟩ :=
      htiles.exists_covers first (hmem first hfirstMem)
    rw [List.append_assoc] at hearlier
    rw [hplace.span] at hstart
    obtain ⟨rfl, -⟩ := Text.append_inj_of_byteLength (hearlier.symm.trans hsource) hstart
    have hline' := hcovers.firstLine
    rw [hfirst, Option.map_some, Option.some.injEq, Token.line, hplace.position] at hline'
    rw [← hline']
    simp [Position.behind, List.count_eq_zero_of_not_mem hline]
  rw [ReadsAs, hoffset, hfirstLine, Nat.add_sub_cancel]
  obtain ⟨others, hothers⟩ := List.head?_eq_some_iff.mp hfirst
  obtain ⟨init, hinit⟩ := List.getLast?_eq_some_iff.mp hlast
  rw [hothers, List.append_assoc, List.cons_append] at hsplit
  have hplain {token : Token} (hmem : token ∈ list) (hkind : token.kind.isLayout = false) :
      token.isPlain = true := Token.isPlain_iff.mpr ⟨hkind, hend token hmem⟩
  refine (Scanner.exists_opening_of_line hsplit hseparates (hplain hfirstMem hkind) hsource hlines
    hline hstart).imp_right ?_
  rintro ⟨passed, opening, gap, hpassed, hopening, hcursor, htokens, hgap⟩
  have hcontent : (ofTokens source before list).content ++ rest = line ++ rest' := by
    rw [hpiece, List.append_assoc, List.append_assoc] at hsource
    exact List.append_cancel_left hsource
  rw [hinit]
  refine hopening.tokens_eq hpassed (hinit ▸ hpiece) hlines ?_ ?_ hgap (hplain hlastMem hkind') ?_
    hback
  · rw [hcursor, ← hinit, hcontent]
  · rw [htokens, ← List.cons_append, ← hothers, hinit]
    simp
  · rw [← hinit, Text.byteLength_append, ← hstop, stopOffset, hoffset]

/-- The content of every chunk is read on its own to the tokens that the chunk is made of, as many
lines and bytes further up, unless the line it starts with lies within a comment. -/
theorem detect_readsAs (source : List Char) :
    ∀ chunk ∈ detect source, ∃ before, ∃ tokens ∈ cut (tokenize source),
      chunk = ofTokens source before tokens ∧
        (InComment source chunk.startOffset ∨ chunk.ReadsAs tokens) := by
  intro chunk hmem
  obtain ⟨tokens, htokens, before, rfl⟩ := mem_ofTokenLists hmem
  exact ⟨before, tokens, htokens, rfl, readsAs_of_cut htokens before⟩

/-- Two elements with comments around them, which end on the line that they start on. -/
def commentedPair : List Char :=
  "/* a */ orb \"A\" \x7b\x7d // b\n\torb \"B\" #main \x7b\n\t\tx: 1\n\t\x7d # c\n".toList

theorem readsAs_of_commentedPair : ∃ chunk ∈ detect commentedPair,
    chunk.id = "orb:A" ∧ ∃ before, ∃ tokens ∈ cut (tokenize commentedPair),
      chunk = ofTokens commentedPair before tokens ∧
        (InComment commentedPair chunk.startOffset ∨ chunk.ReadsAs tokens) := by
  have hhead : (detect commentedPair).head?.map Chunk.id = some "orb:A" := by decide +kernel
  obtain ⟨chunk, hchunk, hid⟩ := Option.map_eq_some_iff.mp hhead
  have hmem := List.mem_of_mem_head? hchunk
  exact ⟨chunk, hmem, hid, detect_readsAs commentedPair chunk hmem⟩

/-- An element behind a comment that starts on a line before. -/
def commentedLine : List Char :=
  "/* a\n b */ orb \"A\" \x7b\x7d\n".toList

/-- The content of the chunk starts within the comment, and is read without its beginning. -/
theorem not_detect_readsAs : ¬∀ chunk ∈ detect commentedLine, ∃ before,
    ∃ tokens ∈ cut (tokenize commentedLine),
      chunk = ofTokens commentedLine before tokens ∧ chunk.ReadsAs tokens := by
  intro hreads
  have hmiss : ∀ chunk ∈ detect commentedLine, ∀ tokens ∈ cut (tokenize commentedLine),
      ¬chunk.ReadsAs tokens := by
    decide +kernel
  have hsome : detect commentedLine ≠ [] := by decide +kernel
  obtain ⟨chunk, hmem⟩ := List.exists_mem_of_ne_nil _ hsome
  obtain ⟨_, tokens, htokens, -, hread⟩ := hreads chunk hmem
  exact hmiss chunk hmem tokens htokens hread

end Chunk
end SceneLang
